/-
  THE SERVER: remote calls of every kind at once, on one cache.

  1. **A call** (`Rpc`) is one of the endpoints that convert, or `GetBeatmapInfo`.  All of them
     parse their beatmap through the cache and do the rest on their own (`Rpc.run_of_ok`), so
     what a call gets `alone`, from an empty cache, is a function of its own bytes.

  2. **Isolation.**  Any number of calls of any kind, in any interleaving, on a cache that
     earlier calls have left, where bytes of equal ids, of these calls and of the earlier ones,
     parse alike: each gets what it gets alone, or the spurious `MissingBeatmap`; and with room
     for the ids in use it gets what it gets alone.

  3. **Streams.**  A stream's channel is there before its calculation is set up, and the client
     may close it at any moment.  `ServerStep` interleaves the cache turns of all calls with
     the sends, receives and closes of all streams.  Whatever the interleaving, and under the
     same proviso, each client has received a beginning of what its stream sends alone.

  Nothing new has to be proved of the cache here: calls of any kind load as the calls of
  `PpService.Interleaving` do, so what they find is known, and the rest of a call is a function
  of what it finds.  The streams need one invariant more, which ties each channel to its call
  (`Follows`): a channel that runs is in a state that its producer, set up from the result of the
  ended call, can have come to.  A cache turn leaves ended calls alone, and a step of a channel
  is one of the channel's own, so every step keeps it (`ServerStep.follows`).
-/
import PpService.Capacity
import PpService.Settings
import PpService.Stream

namespace PpService

open Proto (BeatmapSource BeatmapInfoRequest BeatmapInfoResponse GradualDifficultyRequest
  GradualPerformanceRequest GradualDifficultyResponse GradualPerformanceResponse)
open Threads (Sys Run RunWhere StepAt)

variable {Map Mods GD GP : Type} (rosu : RosuPp Map Mods GD GP) (plot : Plotting) (fs : Files)

/-! ## Remote calls -/

/-- A remote call about one beatmap. A batch is a number of performance calls. Streams answer later
    than their call and are modelled below. -/
inductive Rpc where
  | endpoint (e : Endpoint)
  | beatmapInfo (req : BeatmapInfoRequest)

namespace Rpc

/-- Where the call has its beatmap from. -/
def source : Rpc → Option BeatmapSource
  | endpoint e => e.source
  | beatmapInfo req => req.beatmap

/-- What the call answers. -/
def Answer (GD GP : Type) : Rpc → Type
  | endpoint e => e.Answer GD GP
  | beatmapInfo _ => BeatmapInfoResponse

/-- The call on a cache. -/
def run : (r : Rpc) → BeatmapCache Map → Except Error (r.Answer GD GP) × BeatmapCache Map
  | endpoint e => e.run rosu plot fs
  | beatmapInfo req => Calculator.beatmapInfo rosu fs req

/-- The call from the loaded map on. -/
def answer : (r : Rpc) → Map → Except Error (r.Answer GD GP)
  | endpoint e, map =>
    (convertWith rosu e.mode (Calculator.conversionMods rosu e.settings) map).bind
      (e.compute rosu plot (e.difficultyOf rosu))
  | beatmapInfo _, map => .ok (beatmapToProto rosu map)

/-- The call from the parsed map on: the suspicion check, the conversion if there is one, and the
    computation, none of which looks at the cache. -/
def finish (r : Rpc) (map : Map) : Except Error (r.Answer GD GP) :=
  (Calculator.checkSuspicion rosu map).bind (r.answer rosu plot)

/-- Loading, and then what does not touch the cache. -/
theorem run_eq (r : Rpc) (c : BeatmapCache Map) :
    r.run rosu plot fs c =
      thenPure (Calculator.loadBeatmap rosu fs r.source c) (r.answer rosu plot) := by
  cases r with
  -- the conversion is part of what comes after
  | endpoint e => exact e.run_eq rosu plot fs c
  | beatmapInfo req => rfl

/-- Without bytes a call ends with its own error and leaves the cache alone. -/
theorem run_of_error {r : Rpc} {err : Error} (h : requestBytes fs r.source = .error err)
    (c : BeatmapCache Map) : r.run rosu plot fs c = (.error err, c) := by
  rw [run_eq, loadBeatmap_of_error rosu fs h]
  rfl

/-- With bytes it is the one call that uses the cache, then a computation. -/
theorem run_of_ok {r : Rpc} {bytes : ByteArray} (h : requestBytes fs r.source = .ok bytes)
    (c : BeatmapCache Map) :
    r.run rosu plot fs c = thenPure (parseBeatmapCached rosu bytes c) (r.finish rosu plot) := by
  rw [run_eq, loadBeatmap_of_ok rosu fs h, thenPure_thenPure]
  rfl

/-- What the call gets alone, on an empty cache: what it would get if it were the only one ever. -/
def alone (size : Nat) (r : Rpc) : Except Error (r.Answer GD GP) :=
  (r.run rosu plot fs (.new size)).1

/-- Alone, a call gets what its own bytes parse to. -/
theorem alone_eq_finish (size : Nat) (r : Rpc) :
    r.alone rosu plot fs size =
      ((requestBytes fs r.source).bind (parseBytes rosu)).bind (r.finish rosu plot) := by
  unfold alone
  cases hb : requestBytes fs r.source with
  | error err =>
    rw [run_of_error rosu plot fs hb]
    rfl
  | ok bytes =>
    rw [run_of_ok rosu plot fs hb, thenPure, parseBeatmapCached_new]
    rfl

/-- What the call has come to, once it has its beatmap. -/
def outcome (r : Rpc) : Call Map → Option (Except Error (r.Answer GD GP))
  | .done loaded => some (loaded.bind (r.finish rosu plot))
  -- still on its way
  | _ => none

/-- A call has come to something once it has ended at the cache. -/
theorem outcome_eq_some {r : Rpc} {call : Call Map} {result : Except Error (r.Answer GD GP)}
    (h : r.outcome rosu plot call = some result) :
    ∃ loaded, call = .done loaded ∧ result = loaded.bind (r.finish rosu plot) := by
  cases call with
  | done loaded => exact ⟨loaded, rfl, (Option.some.inj h).symm⟩
  | lookup id bytes => cases h
  | parse id bytes => cases h
  | insert id map => cases h
  | reread id => cases h
  | uncached bytes => cases h

end Rpc

/-! ## Isolation -/

variable {ι : Type} [DecidableEq ι]

/-- What calls ask of the cache. -/
def loads (rpcs : ι → Files × Rpc) (i : ι) : Files × Option BeatmapSource :=
  ((rpcs i).1, (rpcs i).2.source)

/-- **Calls do not disturb each other.**  `sent` are the bytes of the calls and of those that
    filled the cache, and bytes in it that have the same id parse alike.  In any interleaving a
    call gets what it gets alone, or `MissingBeatmap` for a beatmap that parses; and with room
    for the ids in use it gets what it gets alone. -/
theorem rpcs_answer_as_alone {sent : ByteArray → Prop} {rpcs : ι → Files × Rpc}
    {c : BeatmapCache Map} (hids : IdsDecide rosu sent) (hreach : Reachable rosu sent c)
    (hcarried : ∀ bytes, CarriedBy (loads rpcs) bytes → sent bytes)
    {s : Sys (BeatmapCache Map) (Call Map) ι}
    (hrun : Run (callStep rosu) (callsOn c (loads rpcs)) s)
    (size : Nat) (i : ι) {result : Except Error ((rpcs i).2.Answer GD GP)}
    (hresult : (rpcs i).2.outcome rosu plot (s.threads i) = some result) :
    (result = (rpcs i).2.alone rosu plot (rpcs i).1 size ∨
      result = .error .missingBeatmap ∧
        ∃ bytes map, requestBytes (rpcs i).1 (rpcs i).2.source = .ok bytes ∧
          rosu.fromBytes bytes = .ok map) ∧
    ((UsableIds rosu c (loads rpcs)).encard ≤ c.inner.cap →
      result = (rpcs i).2.alone rosu plot (rpcs i).1 size) := by
  obtain ⟨loaded, hdone, rfl⟩ := Rpc.outcome_eq_some rosu plot hresult
  have hcoh := hreach.coherent hids
  rw [Rpc.alone_eq_finish]
  constructor
  · -- in any case it is on its track
    have htrack := (onTrack_run rosu hids hcarried hcoh hrun).2 i
    rw [hdone] at htrack
    rcases htrack with hown | ⟨hmissing, map, hparse⟩
    · exact Or.inl (by rw [hown]; rfl)
    · -- off the track: the bytes parse, and the entry has gone
      right
      rw [hmissing]
      refine ⟨rfl, ?_⟩
      cases hb : requestBytes (loads rpcs i).1 (loads rpcs i).2 with
      | error err =>
        rw [hb] at hparse
        cases hparse
      | ok bytes =>
        rw [hb] at hparse
        exact ⟨bytes, map, hb, (parseBytes_eq_ok rosu).mp hparse⟩
  · -- with room no entry goes
    intro hroom
    have hown := done_of_keepsPending rosu hids hcarried hcoh (runWhere_of_room rosu hroom hrun)
      hdone
    rw [hown]
    rfl

/-- A difficulty request for one song, and an information request for another. -/
def twoRpcs : Bool → Files × Rpc
  | false =>
    (noFiles, .endpoint (.difficulty
      { beatmap := some (contentSource songA), mode := none, settings := none }))
  | true => (noFiles, .beatmapInfo { beatmap := some (contentSource songC) })

/-- They carry two texts. -/
theorem carried_twoRpcs {bytes : ByteArray} (h : CarriedBy (loads twoRpcs) bytes) :
    bytes = songA.toUTF8 ∨ bytes = songC.toUTF8 := by
  obtain ⟨i, hi⟩ := h
  cases i with
  | false => exact Or.inl (Except.ok.inj hi).symm
  | true => exact Or.inr (Except.ok.inj hi).symm

/-- The theorem at those two, when they have taken turns and both have been answered. -/
theorem twoRpcs_answer_as_alone :
    ∃ s, Run (callStep RosuPp.sample) (callsOn (.new 2) (loads twoRpcs)) s ∧
      ∀ i, ∃ result, (twoRpcs i).2.outcome RosuPp.sample Plotting.blank (s.threads i)
          = some result ∧
        result = (twoRpcs i).2.alone RosuPp.sample Plotting.blank (twoRpcs i).1 1 := by
  have hroom : (UsableIds RosuPp.sample (.new 2) (loads twoRpcs)).encard ≤ (2 : ℕ) := by
    refine (encard_usableIds_le RosuPp.sample _ _).trans ?_
    simp
  have hrun : Run (callStep RosuPp.sample) (callsOn (.new 2) (loads twoRpcs)) _ :=
    Threads.run_exec [false, true, false, true, false, true, false, true] _
  refine ⟨_, hrun, fun i => ?_⟩
  have hdone := done_of_four_turns RosuPp.sample idsDecide_songs (BeatmapCache.Coherent.new 2)
    (fun _ hb => carried_twoRpcs hb) hroom [false, true, false, true, false, true, false, true]
    (i := i) (by cases i <;> decide)
  obtain ⟨result, hresult⟩ : ∃ result, (twoRpcs i).2.outcome RosuPp.sample Plotting.blank
      ((Threads.exec (callStep RosuPp.sample) [false, true, false, true, false, true, false, true]
        (callsOn (.new 2) (loads twoRpcs))).threads i) = some result := by
    rw [hdone]
    exact ⟨_, rfl⟩
  exact ⟨result, hresult, (rpcs_answer_as_alone RosuPp.sample Plotting.blank idsDecide_songs
    (reachable_new _ 2) (fun _ hb => carried_twoRpcs hb) hrun 1 i hresult).2 hroom⟩

/-! ## Streams -/

/-- A call that answers with a stream. -/
inductive StreamRpc where
  | difficulty (req : GradualDifficultyRequest)
  | performance (req : GradualPerformanceRequest)

/-- What the task of a stream iterates over. -/
inductive StreamIter (GD GP : Type) where
  | difficulty (it : GradualDifficultyIter GD)
  | performance (pp : GradualPerformanceCalc GP)

/-- The messages of both streams. -/
inductive StreamItem where
  | difficulty (resp : GradualDifficultyResponse)
  | performance (resp : GradualPerformanceResponse)

/-- Either iterator, in place. -/
def StreamIter.next : StreamIter GD GP → Option StreamItem × StreamIter GD GP
  | .difficulty it => ((it.next rosu).1.map .difficulty, .difficulty (it.next rosu).2)
  | .performance pp => ((pp.next rosu).1.map .performance, .performance (pp.next rosu).2)

namespace StreamRpc

/-- Where the stream has its beatmap from. -/
def source : StreamRpc → Option BeatmapSource
  | difficulty req => req.beatmap
  | performance req => req.beatmap

/-- `Calculator::gradual_difficulty` or `Calculator::gradual_performance`. -/
def run (c : BeatmapCache Map) : StreamRpc → Except Error (StreamIter GD GP) × BeatmapCache Map
  | difficulty req =>
    thenPure (Calculator.gradualDifficulty rosu fs req c) fun it => .ok (.difficulty it)
  | performance req =>
    thenPure (Calculator.gradualPerformance rosu fs req c) fun pp => .ok (.performance pp)

/-- The setup from the loaded map on. -/
def answer (r : StreamRpc) (map : Map) : Except Error (StreamIter GD GP) :=
  match r with
  | difficulty req =>
    (Calculator.convertLoaded rosu (.ofField req.mode) req.settings map).bind fun map =>
      .ok (.difficulty (.new
        (rosu.gradualDifficulty (Calculator.buildDifficulty rosu req.settings) map)
        (effectiveCs (rosu.data map).cs req.settings)))
  | performance req =>
    (Calculator.convertLoaded rosu (.ofField req.mode) req.difficultySettings map).bind fun map =>
      .ok (.performance (.new
        (rosu.gradualPerformance (Calculator.buildDifficulty rosu req.difficultySettings) map) req))

/-- The setup from the parsed map on. -/
def setup (r : StreamRpc) (map : Map) : Except Error (StreamIter GD GP) :=
  (Calculator.checkSuspicion rosu map).bind (r.answer rosu)

/-- Loading, and then what does not touch the cache, as for the other calls. -/
theorem run_eq (r : StreamRpc) (c : BeatmapCache Map) :
    r.run rosu fs c = thenPure (Calculator.loadBeatmap rosu fs r.source c) (r.answer rosu) := by
  cases r with
  | difficulty req =>
    rw [run, Calculator.gradualDifficulty, Calculator.loadAndConvert, thenPure_thenPure,
      thenPure_thenPure]
    rfl
  | performance req =>
    rw [run, Calculator.gradualPerformance, Calculator.loadAndConvert, thenPure_thenPure,
      thenPure_thenPure]
    rfl

/-- The setup of a stream that nobody interrupts, on an empty cache. -/
def alone (size : Nat) (r : StreamRpc) : Except Error (StreamIter GD GP) :=
  (r.run rosu fs (.new size)).1

/-- Alone, it is set up from what its own bytes parse to. -/
theorem alone_eq_setup (size : Nat) (r : StreamRpc) :
    r.alone rosu fs size =
      ((requestBytes fs r.source).bind (parseBytes rosu)).bind (r.setup rosu) := by
  rw [alone, run_eq]
  cases hb : requestBytes fs r.source with
  | error err =>
    rw [loadBeatmap_of_error rosu fs hb]
    rfl
  | ok bytes =>
    rw [loadBeatmap_of_ok rosu fs hb, thenPure_thenPure, thenPure, parseBeatmapCached_new]
    rfl

end StreamRpc

/-- The task of a stream, as the producer of its channel. -/
abbrev StreamChan (GD GP : Type) : Type :=
  Chan.State (StreamTask (StreamIter GD GP)) (Except Status StreamItem)

/-- The channel of a stream: until the task has its beatmap the client can only close it.
    Afterwards it is the channel of `PpService.Stream`, with what is left of the task as its
    producer. -/
inductive Channel (GD GP : Type) where
  | waiting (closed : Bool)
  | running (ch : StreamChan GD GP)

/-- The cache with all calls on it, and the channels of the streams among them. -/
structure ServerState (Map GD GP ι κ : Type) where
  calls : Sys (BeatmapCache Map) (Call Map) (ι ⊕ κ)
  channels : ι → Channel GD GP

variable {κ : Type} [DecidableEq κ]

/-- What streams and other calls ask of the cache. -/
def streamLoads (streams : ι → Files × StreamRpc) (others : κ → Files × Option BeatmapSource) :
    ι ⊕ κ → Files × Option BeatmapSource :=
  Sum.elim (fun i => ((streams i).1, (streams i).2.source)) others

/-- The server before any of them has had a turn. -/
def serverOn (c : BeatmapCache Map) (streams : ι → Files × StreamRpc)
    (others : κ → Files × Option BeatmapSource) : ServerState Map GD GP ι κ :=
  ⟨callsOn c (streamLoads streams others), fun _ => .waiting false⟩

/-- One step of the server: a turn at the cache, or one of the two ends of a channel.  Any of them
    may be next, so a run is any interleaving of calls and streams. -/
inductive ServerStep (streams : ι → Files × StreamRpc) :
    ServerState Map GD GP ι κ → ServerState Map GD GP ι κ → Prop where
  -- any call has a turn at the cache
  | turn {s calls} (j : ι ⊕ κ) (h : StepAt (callStep rosu) j s.calls calls) :
    ServerStep streams s ⟨calls, s.channels⟩
  -- the client leaves before the task has its beatmap
  | leave {s} (i : ι) (h : s.channels i = .waiting false) :
    ServerStep streams s ⟨s.calls, Function.update s.channels i (.waiting true)⟩
  -- the call has ended, and the task goes on from its result
  | begin {s} (i : ι) {loaded : Except Error Map} {closed : Bool}
    (hdone : s.calls.threads (.inl i) = .done loaded) (h : s.channels i = .waiting closed) :
    ServerStep streams s ⟨s.calls, Function.update s.channels i
      (.running { Chan.start (.ofSetup (loaded.bind ((streams i).2.setup rosu))) with closed })⟩
  -- either end of a running channel
  | move {s} (i : ι) {ch ch' : StreamChan GD GP} (h : s.channels i = .running ch)
    (hstep : Chan.Step channelCapacity (StreamTask.next (StreamIter.next rosu)) ch ch') :
    ServerStep streams s ⟨s.calls, Function.update s.channels i (.running ch')⟩

/-- Runs of any length. -/
def ServerRun (streams : ι → Files × StreamRpc) :
    ServerState Map GD GP ι κ → ServerState Map GD GP ι κ → Prop :=
  Relation.ReflTransGen (ServerStep rosu streams)

/-- What ties a stream's channel to its call: once the task runs, the call has ended, and the
    messages are on their way from a task that was set up from the call's result. -/
def Follows (r : StreamRpc) (call : Call Map) : Channel GD GP → Prop
  | .waiting _ => True
  | .running ch => ∃ loaded, call = .done loaded ∧
      ∀ all, Chan.Emits (StreamTask.next (StreamIter.next rosu))
          (.ofSetup (loaded.bind (r.setup rosu))) all →
        Chan.Inv (StreamTask.next (StreamIter.next rosu)) all ch

variable {rosu} in
/-- A turn at the cache leaves a call that has ended as it is. -/
theorem done_of_stepAt {ι : Type} [DecidableEq ι] {s s' : Sys (BeatmapCache Map) (Call Map) ι}
    {i j : ι} (h : StepAt (callStep rosu) j s s') {loaded : Except Error Map}
    (hdone : s.threads i = .done loaded) : s'.threads i = .done loaded := by
  obtain ⟨c', call', hstep, rfl⟩ := h
  -- the call that moves has not ended, so it is another one
  by_cases hij : i = j
  · subst hij
    rw [hdone] at hstep
    cases hstep
  · show Function.update s.threads j call' i = _
    rw [Function.update_of_ne hij, hdone]

section

variable {rosu} {streams : ι → Files × StreamRpc} {others : κ → Files × Option BeatmapSource}
  {c : BeatmapCache Map} {s s' : ServerState Map GD GP ι κ}

/-- What one step of the server keeps: the calls run as calls do, and every channel follows its
    call. -/
theorem ServerStep.follows (h : ServerStep rosu streams s s')
    (hrun : Run (callStep rosu) (callsOn c (streamLoads streams others)) s.calls)
    (hfollows : ∀ i, Follows rosu (streams i).2 (s.calls.threads (.inl i)) (s.channels i)) :
    Run (callStep rosu) (callsOn c (streamLoads streams others)) s'.calls ∧
      ∀ i, Follows rosu (streams i).2 (s'.calls.threads (.inl i)) (s'.channels i) := by
  cases h with
  | @turn calls j hstep =>
    refine ⟨hrun.snoc hstep, fun i => ?_⟩
    have hi := hfollows i
    show Follows rosu (streams i).2 (calls.threads (.inl i)) (s.channels i)
    cases hch : s.channels i with
    | waiting closed => exact trivial
    | running ch =>
      rw [hch] at hi
      obtain ⟨loaded, hdone, hinv⟩ := hi
      exact ⟨loaded, done_of_stepAt hstep hdone, hinv⟩
  | leave j hj =>
    refine ⟨hrun, fun i => ?_⟩
    show Follows rosu _ _ (Function.update s.channels j _ i)
    by_cases hij : i = j
    · subst hij
      rw [Function.update_self]
      exact trivial
    · rw [Function.update_of_ne hij]
      exact hfollows i
  | @begin j loaded closed hdone hj =>
    -- the channel starts with all messages still to come, whether its client is there or not
    refine ⟨hrun, fun i => ?_⟩
    show Follows rosu _ _ (Function.update s.channels j _ i)
    by_cases hij : i = j
    · subst hij
      rw [Function.update_self]
      refine ⟨loaded, hdone, fun all hall => ?_⟩
      obtain ⟨rest, hrest, hcome⟩ := Chan.Inv.start hall
      refine ⟨rest, hrest, Or.inl ?_⟩
      rcases hcome with hcome | hclosed
      · exact hcome
      · cases hclosed
    · rw [Function.update_of_ne hij]
      exact hfollows i
  | @move j ch ch' hj hstep =>
    refine ⟨hrun, fun i => ?_⟩
    show Follows rosu _ _ (Function.update s.channels j _ i)
    by_cases hij : i = j
    · subst hij
      rw [Function.update_self]
      have hi := hfollows i
      rw [hj] at hi
      obtain ⟨loaded, hdone, hinv⟩ := hi
      exact ⟨loaded, hdone, fun all hall => (hinv all hall).step hstep⟩
    · rw [Function.update_of_ne hij]
      exact hfollows i

/-- So in every state reached the channels follow their calls. -/
theorem ServerRun.follows (h : ServerRun rosu streams (serverOn c streams others) s) :
    Run (callStep rosu) (callsOn c (streamLoads streams others)) s.calls ∧
      ∀ i, Follows rosu (streams i).2 (s.calls.threads (.inl i)) (s.channels i) := by
  induction h with
  | refl => exact ⟨Relation.ReflTransGen.refl, fun i => trivial⟩
  | tail _ hlast ih => exact hlast.follows ih.1 ih.2

end

/-- What a client of a stream can have received of the messages it is sent: a beginning of them,
    and all of them once the stream has ended and the client has not left. -/
def ReceivedOf (messages : List (Except Status StreamItem)) (ch : StreamChan GD GP) : Prop :=
  ch.received <+: messages ∧
    (ch.closed = false → ch.producer = .stopped → ch.buffer = [] → ch.received = messages)

/-- **Streams do not disturb each other.**  `sent` are the bytes of all calls and of those that
    filled the cache, and bytes in it that have the same id parse alike; `messages` is what
    stream `i` sends alone.  However the cache turns of all calls and the two ends of all channels
    are interleaved, its client has received a beginning of the messages, and all of them when the
    stream has ended and the client has not left; or else the one error of a beatmap evicted in
    between, which needs more ids in use than the cache has room for. -/
theorem streams_deliver_as_alone {sent : ByteArray → Prop} {streams : ι → Files × StreamRpc}
    {others : κ → Files × Option BeatmapSource} {c : BeatmapCache Map}
    (hids : IdsDecide rosu sent) (hreach : Reachable rosu sent c)
    (hcarried : ∀ bytes, CarriedBy (streamLoads streams others) bytes → sent bytes) (size : Nat)
    (i : ι) {messages : List (Except Status StreamItem)}
    (hmessages : Chan.Emits (StreamTask.next (StreamIter.next rosu))
      (.ofSetup ((streams i).2.alone rosu (streams i).1 size)) messages)
    {s : ServerState Map GD GP ι κ} (hrun : ServerRun rosu streams (serverOn c streams others) s)
    {ch : StreamChan GD GP} (hch : s.channels i = .running ch) :
    (ReceivedOf messages ch ∨ ReceivedOf [.error Error.missingBeatmap.toStatus] ch) ∧
    ((UsableIds rosu c (streamLoads streams others)).encard ≤ c.inner.cap →
      ReceivedOf messages ch) := by
  obtain ⟨hcalls, hfollows⟩ := hrun.follows
  have hi := hfollows i
  rw [hch] at hi
  obtain ⟨loaded, hdone, hinv⟩ := hi
  have hreceived : ∀ all, Chan.Emits (StreamTask.next (StreamIter.next rosu))
      (.ofSetup (loaded.bind ((streams i).2.setup rosu))) all → ReceivedOf all ch :=
    fun all hall =>
      ⟨Chan.Inv.received_prefix (hinv all hall), Chan.Inv.received_all (hinv all hall)⟩
  have hcoh := hreach.coherent hids
  rw [StreamRpc.alone_eq_setup] at hmessages
  -- a call that has ended with its own result has set up the stream it sets up alone
  have hown : loaded = (requestBytes (streams i).1 (streams i).2.source).bind (parseBytes rosu) →
      ReceivedOf messages ch := by
    rintro rfl
    exact hreceived _ hmessages
  constructor
  · -- in any case the call is on its track, or has the one error
    have htrack := (onTrack_run rosu hids hcarried hcoh hcalls).2 (.inl i)
    rw [hdone] at htrack
    rcases htrack with heq | ⟨hmissing, _⟩
    · exact Or.inl (hown heq)
    · right
      subst hmissing
      exact hreceived _ (emits_failed _ .missingBeatmap)
  · -- with room it has its own result
    intro hroom
    exact hown (done_of_keepsPending rosu hids hcarried hcoh (runWhere_of_room rosu hroom hcalls)
      hdone)

/-- What calls can do, the server can do. -/
theorem ServerRun.of_calls {streams : ι → Files × StreamRpc} {s : ServerState Map GD GP ι κ}
    {calls : Sys (BeatmapCache Map) (Call Map) (ι ⊕ κ)} (h : Run (callStep rosu) s.calls calls) :
    ServerRun rosu streams s ⟨calls, s.channels⟩ := by
  induction h with
  | refl => exact Relation.ReflTransGen.refl
  | tail _ hlast ih =>
    obtain ⟨j, -, hj⟩ := hlast
    exact ih.tail (.turn j hj)

/-- What the two ends of a channel can do, the server can do. -/
theorem ServerRun.of_chan {streams : ι → Files × StreamRpc} {s : ServerState Map GD GP ι κ} {i : ι}
    {ch ch' : StreamChan GD GP} (hch : s.channels i = .running ch)
    (h : Chan.Run channelCapacity (StreamTask.next (StreamIter.next rosu)) ch ch') :
    ServerRun rosu streams s ⟨s.calls, Function.update s.channels i (.running ch')⟩ := by
  induction h with
  | refl =>
    rw [← hch, Function.update_eq_self]
    exact Relation.ReflTransGen.refl
  | @tail ch₁ ch₂ _ hlast ih =>
    have hmove : ServerStep rosu streams ⟨s.calls, Function.update s.channels i (.running ch₁)⟩
        ⟨s.calls, Function.update (Function.update s.channels i (.running ch₁)) i (.running ch₂)⟩ :=
      .move i (Function.update_self ..) hlast
    rw [Function.update_idem] at hmove
    exact ih.tail hmove

/-- A stream whose call has ended can be delivered whole, to a client that takes each message at
    once, while all others wait. -/
theorem ServerRun.deliver {streams : ι → Files × StreamRpc} {s : ServerState Map GD GP ι κ} {i : ι}
    {loaded : Except Error Map} {messages : List (Except Status StreamItem)}
    (hdone : s.calls.threads (.inl i) = .done loaded) (hwaiting : s.channels i = .waiting false)
    (hmessages : Chan.Emits (StreamTask.next (StreamIter.next rosu))
      (.ofSetup (loaded.bind ((streams i).2.setup rosu))) messages) :
    ServerRun rosu streams s ⟨s.calls, Function.update s.channels i
      (.running ⟨.stopped, [], messages, false⟩)⟩ := by
  have hbegin : ServerStep rosu streams s _ := .begin i hdone hwaiting
  have hdelivered := Chan.delivers (show 0 < channelCapacity by decide) hmessages []
  have hrun : ServerRun rosu streams ⟨s.calls, Function.update s.channels i _⟩ _ :=
    .of_chan rosu (Function.update_self ..) hdelivered
  rw [Function.update_idem] at hrun
  exact hrun.head hbegin

/-! ### Two streams and another call -/

/-- A library that finds one object in the song with the id 1, worth three, and two objects worth
    one each in every other. -/
def RosuPp.perSong :
    RosuPp ByteArray UInt32 (List DifficultyAttributes) (List PerformanceAttributes) :=
  { RosuPp.sample with
    gradualDifficulty := fun _ map =>
      if parseBeatmapId map = some 1 then [.ofCombo 3] else [.ofCombo 1, .ofCombo 2] }

/-- The two songs, each as a stream. -/
def twoStreams (second : Bool) : Files × StreamRpc :=
  (noFiles, .difficulty
    { beatmap := some (contentSource (if second then songC else songA)), mode := none
      settings := none })

/-- Another call that is served with them, for one of the songs. -/
def bystander : Unit → Files × Option BeatmapSource :=
  fun _ => (noFiles, some (contentSource songA))

/-- The results of a stream as its messages. -/
def streamItems (attrs : List DifficultyAttributes) : List (Except Status StreamItem) :=
  (attrs.mapIdx fun i a => StreamItem.difficulty
    (difficultyAttrsToGradualProto (UInt32.ofNat i) a (effectiveCs 5 none))).map .ok

/-- One message for the first song, two for the second. -/
def twoStreamsItems (second : Bool) : List (Except Status StreamItem) :=
  streamItems (if second then [.ofCombo 1, .ofCombo 2] else [.ofCombo 3])

theorem requestBytes_twoStreams (second : Bool) :
    requestBytes noFiles (twoStreams second).2.source
      = .ok (if second then songC else songA).toUTF8 := by
  cases second <;> rfl

theorem carried_twoStreams {bytes : ByteArray}
    (h : CarriedBy (streamLoads twoStreams bystander) bytes) :
    bytes = songA.toUTF8 ∨ bytes = songC.toUTF8 := by
  obtain ⟨(_ | _) | i, hi⟩ := h
  · exact Or.inl (Except.ok.inj hi).symm
  · exact Or.inr (Except.ok.inj hi).symm
  · exact Or.inl (Except.ok.inj hi).symm

/-- There is room for three calls. -/
theorem room_twoStreams :
    (UsableIds RosuPp.perSong (.new 3) (streamLoads twoStreams bystander)).encard ≤ (3 : ℕ) := by
  refine (encard_usableIds_le RosuPp.perSong _ _).trans ?_
  simp

/-- What a stream sends once its song has been parsed. -/
theorem emits_twoStreams (second : Bool) :
    Chan.Emits (StreamTask.next (StreamIter.next RosuPp.perSong))
      (.ofSetup (((requestBytes noFiles (twoStreams second).2.source).bind
        (parseBytes RosuPp.perSong)).bind ((twoStreams second).2.setup RosuPp.perSong)))
      (twoStreamsItems second) := by
  rw [requestBytes_twoStreams]
  have hsetup : ∀ map, (twoStreams second).2.setup RosuPp.perSong map =
      .ok (.difficulty (.new (if parseBeatmapId map = some 1 then [.ofCombo 3]
        else [.ofCombo 1, .ofCombo 2]) (effectiveCs 5 none))) := fun _ => rfl
  show Chan.Emits _ (StreamTask.ofSetup ((twoStreams second).2.setup RosuPp.perSong _)) _
  rw [hsetup]
  cases second with
  | false =>
    simp only [Bool.false_eq_true, if_false, parseBeatmapId_songA]
    exact .more rfl (.done rfl)
  | true =>
    simp only [if_true, parseBeatmapId_songC]
    exact .more rfl (.more rfl (.done rfl))

/-- The turns of the two streams' calls and of the other call, one after the other. -/
def threeInTurn : List (Bool ⊕ Unit) :=
  let round := [.inl false, .inl true, .inr ()]
  round ++ round ++ round ++ round

/-- The three calls take turns, then the streams are delivered. -/
theorem twoStreams_run :
    ∃ s : ServerState ByteArray (List DifficultyAttributes) (List PerformanceAttributes) Bool Unit,
      ServerRun RosuPp.perSong twoStreams (serverOn (.new 3) twoStreams bystander) s ∧
      ∀ second, s.channels second = .running ⟨.stopped, [], twoStreamsItems second, false⟩ := by
  have hdone := fun (second : Bool) => done_of_four_turns RosuPp.perSong idsDecide_songs
    (BeatmapCache.Coherent.new 3) (fun _ hb => carried_twoStreams hb) room_twoStreams threeInTurn
    (i := .inl second) (by cases second <;> decide)
  -- first the turns, then one stream, then the other
  have hturns : ServerRun RosuPp.perSong twoStreams (serverOn (.new 3) twoStreams bystander)
      ⟨Threads.exec (callStep RosuPp.perSong) threeInTurn
        (callsOn (.new 3) (streamLoads twoStreams bystander)), fun _ => .waiting false⟩ :=
    .of_calls RosuPp.perSong (Threads.run_exec threeInTurn _)
  have hfirst := hturns.trans
    (ServerRun.deliver RosuPp.perSong (hdone false) rfl (emits_twoStreams false))
  have hsecond := hfirst.trans
    (ServerRun.deliver RosuPp.perSong (hdone true) rfl (emits_twoStreams true))
  refine ⟨_, hsecond, fun second => ?_⟩
  cases second with
  | false => rfl
  | true => rfl

/-- The theorem at these streams, when their clients have taken everything: each has received
    what its own song sends. -/
theorem twoStreams_deliver_as_alone :
    ∃ s, ServerRun RosuPp.perSong twoStreams (serverOn (.new 3) twoStreams bystander) s ∧
      ∀ second, ∃ ch, s.channels second = .running ch ∧
        ch.received = twoStreamsItems second ∧ ReceivedOf (twoStreamsItems second) ch := by
  obtain ⟨s, hrun, hch⟩ := twoStreams_run
  refine ⟨s, hrun, fun second => ⟨_, hch second, rfl, ?_⟩⟩
  have hmessages := emits_twoStreams second
  refine (streams_deliver_as_alone RosuPp.perSong idsDecide_songs (reachable_new _ 3)
    (fun _ hb => carried_twoStreams hb) 1 second ?_ hrun (hch second)).2 room_twoStreams
  rw [StreamRpc.alone_eq_setup]
  exact hmessages

end PpService
