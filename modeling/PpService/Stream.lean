/-
  THE GRADUAL STREAMS of `src/server/grpc.rs`: `get_gradual_difficulty` and
  `get_gradual_performance`.

  Each endpoint starts a task and answers the receiving end of a channel.  The task sets the
  calculation up; if that fails it sends the error and ends, otherwise it sends one result
  after another until there are no more, or until a send is refused because the client has
  gone.  So the task is a producer in the sense of `Chan`, and the two endpoints are one task
  (`StreamTask`) over two iterators.

  Nothing is lost, repeated or reordered, at any interleaving with the client; the results are
  numbered by a `u32`, so from the 2^32-nd object on the numbers start again at zero.

  The proof goes through what the iterator emits: a task that loops over an iterator that emits
  `l` emits one message for each element of `l` (`emits_looping`), a failed setup emits its error
  (`emits_failed`), and a channel delivers what its producer emits (`Chan.Inv`), with back
  pressure and with a client that may leave at any moment.
-/
import PpService.Gradual

namespace PpService

open Chan (Emits ofNext ofNext_eq_some ofNext_eq_none)
open Proto (GradualDifficultyRequest GradualPerformanceRequest GradualDifficultyResponse
  GradualPerformanceResponse)

variable {Map Mods GD GP : Type} (rosu : RosuPp Map Mods GD GP) (fs : Files)

/-! ## The task of a stream -/

/-- `mpsc::channel(128)`. -/
def channelCapacity : Nat := 128

/-- What the task has still to do: send the error of a setup that failed, loop over the iterator,
    or nothing. -/
inductive StreamTask (It : Type) where
  /-- Send the error of the setup. -/
  | failed (err : Error)
  /-- Go on with the loop. -/
  | looping (it : It)
  | ended

/-- `match Calculator::gradual_..(&req)`. -/
def StreamTask.ofSetup {It : Type} : Except Error It → StreamTask It
  | .error err => .failed err
  | .ok it => .looping it

/-- The next message the task sends. -/
def StreamTask.next {It Resp : Type} (next : It → Option Resp × It) :
    StreamTask It → Option (Except Status Resp × StreamTask It)
  | .failed err => some (.error err.toStatus, .ended)
  | .looping it =>
    -- dropping the sender after the last result is how the stream ends
    match next it with
    | (some resp, it) => some (.ok resp, .looping it)
    | (none, _) => none
  | .ended => none

/-- The stream of `get_gradual_difficulty`, before its task has had a turn. -/
def gradualDifficultyStream (req : GradualDifficultyRequest) (c : BeatmapCache Map) :
    Chan.State (StreamTask (GradualDifficultyIter GD)) (Except Status GradualDifficultyResponse) :=
  Chan.start (.ofSetup (Calculator.gradualDifficulty rosu fs req c).1)

/-- The stream of `get_gradual_performance`, before its task has had a turn. -/
def gradualPerformanceStream (req : GradualPerformanceRequest) (c : BeatmapCache Map) :
    Chan.State (StreamTask (GradualPerformanceCalc GP))
      (Except Status GradualPerformanceResponse) :=
  Chan.start (.ofSetup (Calculator.gradualPerformance rosu fs req c).1)

/-! ## What it delivers -/

/-- Whatever the interleaving, the client has received a beginning of `messages`; and all of them
    once the task has ended and the channel, never closed, is empty. -/
def Delivers {It Resp : Type} (next : It → Option Resp × It)
    (s : Chan.State (StreamTask It) (Except Status Resp)) (messages : List (Except Status Resp)) :
    Prop :=
  ∀ s', Chan.Run channelCapacity (StreamTask.next next) s s' →
    s'.received <+: messages ∧
      (s'.closed = false → s'.producer = .stopped → s'.buffer = [] → s'.received = messages)

/-- The channel delivers what its task emits. -/
theorem delivers_of_emits {It Resp : Type} {next : It → Option Resp × It} {task : StreamTask It}
    {messages : List (Except Status Resp)} (h : Emits (StreamTask.next next) task messages) :
    Delivers next (Chan.start task) messages := by
  intro s' hrun
  have hinv := Chan.Inv.run hrun (Chan.Inv.start h)
  exact ⟨hinv.received_prefix, hinv.received_all⟩

/-- A failed setup emits its error. -/
theorem emits_failed {It Resp : Type} (next : It → Option Resp × It) (err : Error) :
    Emits (StreamTask.next next) (.failed err) [.error err.toStatus] :=
  .more rfl (.done rfl)

/-- A loop emits what its iterator does, each result as a message. -/
theorem emits_looping {It Resp : Type} {next : It → Option Resp × It} {it : It} {l : List Resp}
    (h : Emits (ofNext next) it l) :
    Emits (StreamTask.next next) (.looping it) (l.map Except.ok) := by
  induction h with
  | @done it hend =>
    refine .done ?_
    rw [ofNext_eq_none] at hend
    unfold StreamTask.next
    rcases hnext : next it with ⟨_ | resp, it'⟩
    · simp only [hnext]
    · rw [hnext] at hend
      cases hend
  | more hn _ ih =>
    rw [ofNext_eq_some] at hn
    refine .more ?_ ih
    simp only [StreamTask.next, hn]

/-- A fresh iterator starts counting at zero. -/
theorem gradualDifficulty_index {req : GradualDifficultyRequest} {c : BeatmapCache Map}
    {it : GradualDifficultyIter GD} (h : (Calculator.gradualDifficulty rosu fs req c).1 = .ok it) :
    it = .new it.inner it.cs := by
  obtain ⟨map, _, hit⟩ := thenPure_eq_ok h
  cases hit
  rfl

/-- So does a fresh calculation. -/
theorem gradualPerformance_index {req : GradualPerformanceRequest} {c : BeatmapCache Map}
    {pp : GradualPerformanceCalc GP}
    (h : (Calculator.gradualPerformance rosu fs req c).1 = .ok pp) :
    pp = ⟨pp.inner, pp.state, 0⟩ := by
  obtain ⟨map, _, hpp⟩ := thenPure_eq_ok h
  cases hpp
  rfl

/-- **The gradual streams.**  A failed setup delivers its error alone.  Otherwise the messages
    are the results of the library, each once and in order, the `i`-th with the number `i`
    modulo 2^32. -/
theorem gradual_streams_deliver (reqD : GradualDifficultyRequest) (reqP : GradualPerformanceRequest)
    (c : BeatmapCache Map) :
    (∀ err, (Calculator.gradualDifficulty rosu fs reqD c).1 = .error err →
      Delivers (GradualDifficultyIter.next rosu) (gradualDifficultyStream rosu fs reqD c)
        [.error err.toStatus]) ∧
    (∀ it attrs, (Calculator.gradualDifficulty rosu fs reqD c).1 = .ok it →
      Emits (ofNext rosu.nextDifficulty) it.inner attrs →
      Delivers (GradualDifficultyIter.next rosu) (gradualDifficultyStream rosu fs reqD c)
        ((attrs.mapIdx fun i a => difficultyAttrsToGradualProto (UInt32.ofNat i) a it.cs).map
          .ok)) ∧
    (∀ err, (Calculator.gradualPerformance rosu fs reqP c).1 = .error err →
      Delivers (GradualPerformanceCalc.next rosu) (gradualPerformanceStream rosu fs reqP c)
        [.error err.toStatus]) ∧
    (∀ pp attrs, (Calculator.gradualPerformance rosu fs reqP c).1 = .ok pp →
      Emits (ofNext (fedPerformance rosu)) (pp.inner, pp.state) attrs →
      Delivers (GradualPerformanceCalc.next rosu) (gradualPerformanceStream rosu fs reqP c)
        ((attrs.mapIdx fun i a =>
          { objectIndex := UInt32.ofNat i, pp := a.pp, stars := a.stars }).map .ok)) := by
  refine ⟨?_, ?_, ?_, ?_⟩
  · -- the difficulty stream, whose setup fails
    intro err hsetup
    unfold gradualDifficultyStream
    rw [hsetup]
    exact delivers_of_emits (emits_failed _ err)
  · -- the difficulty stream, numbered by its iterator
    intro it attrs hsetup hattrs
    have hindex : it = .new it.inner it.cs := gradualDifficulty_index rosu fs hsetup
    unfold gradualDifficultyStream
    rw [hsetup]
    refine delivers_of_emits (emits_looping ?_)
    rw [hindex]
    exact gradualDifficulty_emits rosu hattrs it.cs
  · -- the same for the performance stream
    intro err hsetup
    unfold gradualPerformanceStream
    rw [hsetup]
    exact delivers_of_emits (emits_failed _ err)
  · intro pp attrs hsetup hattrs
    have hindex : pp = ⟨pp.inner, pp.state, 0⟩ := gradualPerformance_index rosu fs hsetup
    unfold gradualPerformanceStream
    rw [hsetup]
    refine delivers_of_emits (emits_looping ?_)
    rw [hindex]
    exact gradualPerformance_emits rosu hattrs

/-! ### More objects than numbers -/

/-- A stream over a library with given answers. -/
theorem gradualDifficulty_answering (attrs : List DifficultyAttributes) :
    (Calculator.gradualDifficulty (RosuPp.answering attrs) noFiles
      { beatmap := some (contentSource songA), mode := none, settings := none } (.new 1)).1
        = .ok (.new attrs (effectiveCs 5 none)) :=
  gradualDifficulty_of_load _ noFiles (load_answering attrs none)

/-- A client that takes every message at once. -/
theorem answering_delivers (attrs : List DifficultyAttributes) :
    Chan.Run channelCapacity (StreamTask.next (GradualDifficultyIter.next (RosuPp.answering attrs)))
      (gradualDifficultyStream (RosuPp.answering attrs) noFiles
        { beatmap := some (contentSource songA), mode := none, settings := none } (.new 1))
      ⟨.stopped, [], (attrs.mapIdx fun i a =>
        difficultyAttrsToGradualProto (UInt32.ofNat i) a (effectiveCs 5 none)).map .ok,
        false⟩ := by
  unfold gradualDifficultyStream
  rw [gradualDifficulty_answering]
  have hemits : Emits (ofNext (RosuPp.answering attrs).nextDifficulty) attrs attrs :=
    emits_popHead attrs
  exact Chan.delivers (by decide)
    (emits_looping (gradualDifficulty_emits _ hemits (effectiveCs 5 none))) []

/-- Of 2^32 + 1 results, all delivered, the last one has the number of the first. -/
theorem gradual_stream_number_wraps :
    let rosu := RosuPp.answering (List.replicate (2 ^ 32 + 1) (.ofCombo 0))
    ∃ s, Chan.Run channelCapacity (StreamTask.next (GradualDifficultyIter.next rosu))
        (gradualDifficultyStream rosu noFiles
          { beatmap := some (contentSource songA), mode := none, settings := none } (.new 1)) s ∧
      s.closed = false ∧ s.producer = .stopped ∧ s.buffer = [] ∧
      ∃ r, s.received[2 ^ 32]? = some (.ok r) ∧ r.objectIndex.toNat = 0 := by
  intro rosu
  refine ⟨_, answering_delivers _, rfl, rfl, rfl, ?_⟩
  -- the last result, without looking at the others
  have hlast : (List.replicate (2 ^ 32 + 1) (DifficultyAttributes.ofCombo 0))[2 ^ 32]?
      = some (.ofCombo 0) := by
    rw [List.getElem?_replicate, if_pos (by omega)]
  refine ⟨difficultyAttrsToGradualProto (UInt32.ofNat (2 ^ 32)) (.ofCombo 0) (effectiveCs 5 none),
    ?_, rfl⟩
  rw [List.getElem?_map, List.getElem?_mapIdx, hlast]
  rfl

end PpService
