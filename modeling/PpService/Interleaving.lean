/-
  CONCURRENT CALLS: `parse_beatmap_cached` one lock at a time.

  `cache::get` and `cache::insert` each take the lock and give it back, so between two of them
  any other call may have its turns.  A call is a small state machine (`Call`), one transition
  for each locked section and one for the parse between them; the cache is what they share, and
  a run is any interleaving of any number of calls (`Threads.Run`).

  1. **One call alone** does what the sequential function does (`solo_parseBeatmapCached`).

  2. **The second read can fail.**  Between its insertion and its re-read a call depends on its
     entry staying in the cache, and an LRU cache promises that to nobody: enough insertions by
     other calls evict it, and the call then answers `MissingBeatmap`, the error for a request
     without a source, although it has parsed its beatmap.  `KeepsPending` says that a step
     does not do this; runs of such steps are free of the error, and so are all runs exactly
     when no reachable step violates it.

  3. **Answers.**  When the ids decide what is parsed, every call answers what its own bytes
     parse to, or the spurious error: each call is `OnTrack` for its own answer, and the shared
     cache stays coherent with all the bytes that were sent.

  The crux is (2).  The invariant that carries it is an assertion for each call about the cache
  and its own state (`FindsAgain`): while a call is about to read again, its entry is there.
  Its own insertion makes it true, and of the turns of other calls only an insertion can make it
  false, when the entry is the victim.  `KeepsPending` excludes just that, so the assertion
  holds in every state reached (`Threads.RunWhere.assertions`), and the only turn that could
  answer the error without cause cannot happen.  The converse is one turn more: where an entry
  has been evicted, let its call read (`evicts_pending_missing`).

  (3) has the same shape with another assertion.  The cache is shared, so a call may find a map
  that other bytes were parsed to; that the ids decide what is parsed makes it the call's own
  (`resident_parses`).
-/
import PpService.Lib.Threads
import PpService.Serving

namespace PpService

open Proto (BeatmapSource)
open Threads (Sys Run RunWhere StepAt Solo)

variable {Map Mods GD GP : Type} (rosu : RosuPp Map Mods GD GP) (fs : Files)

/-! ## One call as a state machine -/

/-- Where a call stands: what it does at its next turn.  A call holds what the source holds in its
    local variables at that point: its bytes and their id before the parse, the map after it, and
    the id alone once the map has gone into the cache. -/
inductive Call (Map : Type) where
  /-- `cache::get(id)`. -/
  | lookup (id : UInt32) (bytes : ByteArray)
  /-- `Beatmap::from_bytes(bytes)`, after a miss. -/
  | parse (id : UInt32) (bytes : ByteArray)
  /-- `cache::insert(id, map)`. -/
  | insert (id : UInt32) (map : Map)
  /-- `cache::get(id).ok_or(Error::MissingBeatmap)`. -/
  | reread (id : UInt32)
  /-- `Beatmap::from_bytes(bytes)` of a text without an id. -/
  | uncached (bytes : ByteArray)
  | done (result : Except Error Map)

/-- The next atomic step of a call: one locked section of the cache, or the parse between two of
    them. `none` where the call has its answer and takes no more turns. -/
def callStep (c : BeatmapCache Map) : Call Map → Option (BeatmapCache Map × Call Map)
  | .lookup id bytes =>
    match c.get id with
    | (some map, c') => some (c', .done (.ok map))
    | (none, c') => some (c', .parse id bytes)
  | .parse id bytes =>
    -- outside the lock: the cache is not touched
    match parseBytes rosu bytes with
    | .error err => some (c, .done (.error err))
    | .ok map => some (c, .insert id map)
  | .insert id map => some (c.insert id map, .reread id)
  | .reread id =>
    -- the call has given its map away to the cache and has only the id left
    match c.get id with
    | (some map, c') => some (c', .done (.ok map))
    | (none, c') => some (c', .done (.error .missingBeatmap))
  | .uncached bytes => some (c, .done (parseBytes rosu bytes))
  | .done _ => none

/-- A call of `parse_beatmap_cached` that has not had a turn yet. -/
def Call.ofBytes (bytes : ByteArray) : Call Map :=
  match parseBeatmapId bytes with
  | some id => .lookup id bytes
  | none => .uncached bytes

/-- The load of a request that has not had a turn at the cache yet.  Without bytes the call has its
    error from the start, and bytes without an id never come to the cache. -/
def Call.ofRequest (source : Option BeatmapSource) : Call Map :=
  match requestBytes fs source with
  | .error err => .done (.error err)
  | .ok bytes => .ofBytes bytes

/-- A call without a turn yet has nothing in the cache. -/
theorem Call.ofRequest_ne_reread (source : Option BeatmapSource) (id : UInt32) :
    (Call.ofRequest fs source : Call Map) ≠ .reread id := by
  unfold Call.ofRequest
  cases requestBytes fs source with
  | error err => simp
  | ok bytes =>
    show Call.ofBytes bytes ≠ _
    unfold Call.ofBytes
    cases parseBeatmapId bytes <;> simp

/-- What a turn does, case by case.  Every invariant of the calls is a case analysis over these, so
    no proof but the next one unfolds the step function. -/
inductive Moves (c : BeatmapCache Map) : Call Map → BeatmapCache Map → Call Map → Prop where
  | found {id : UInt32} {bytes : ByteArray} {map : Map} (hc : c.lookup id = some map) :
    Moves c (.lookup id bytes) (c.get id).2 (.done (.ok map))
  | missed {id : UInt32} {bytes : ByteArray} (hc : c.lookup id = none) :
    Moves c (.lookup id bytes) (c.get id).2 (.parse id bytes)
  | unparsable {id : UInt32} {bytes : ByteArray} {err : Error}
    (hparse : parseBytes rosu bytes = .error err) :
    Moves c (.parse id bytes) c (.done (.error err))
  | parsed {id : UInt32} {bytes : ByteArray} {map : Map}
    (hparse : parseBytes rosu bytes = .ok map) : Moves c (.parse id bytes) c (.insert id map)
  | inserted {id : UInt32} {map : Map} : Moves c (.insert id map) (c.insert id map) (.reread id)
  | reread {id : UInt32} {map : Map} (hc : c.lookup id = some map) :
    Moves c (.reread id) (c.get id).2 (.done (.ok map))
  | evicted {id : UInt32} (hc : c.lookup id = none) :
    Moves c (.reread id) (c.get id).2 (.done (.error .missingBeatmap))
  | uncached {bytes : ByteArray} : Moves c (.uncached bytes) c (.done (parseBytes rosu bytes))

variable {rosu} in
/-- The step function in that form: one case for each place a call can be at and each outcome
    there. -/
theorem callStep_moves {c c' : BeatmapCache Map} {call call' : Call Map}
    (h : callStep rosu c call = some (c', call')) : Moves rosu c call c' call' := by
  cases call with
  | lookup id bytes =>
    cases hc : c.lookup id with
    | some map =>
      have hget := BeatmapCache.get_of_some hc
      simp only [callStep, hget, Option.some.injEq, Prod.mk.injEq] at h
      obtain ⟨rfl, rfl⟩ := h
      have hmove : Moves rosu c (.lookup id bytes) (c.get id).2 (.done (.ok map)) := .found hc
      rwa [hget] at hmove
    | none =>
      have hget := BeatmapCache.get_of_none hc
      simp only [callStep, hget, Option.some.injEq, Prod.mk.injEq] at h
      obtain ⟨rfl, rfl⟩ := h
      have hmove : Moves rosu c (.lookup id bytes) (c.get id).2 (.parse id bytes) := .missed hc
      rwa [hget] at hmove
  | parse id bytes =>
    cases hparse : parseBytes rosu bytes with
    | error err =>
      simp only [callStep, hparse, Option.some.injEq, Prod.mk.injEq] at h
      obtain ⟨rfl, rfl⟩ := h
      exact .unparsable hparse
    | ok map =>
      simp only [callStep, hparse, Option.some.injEq, Prod.mk.injEq] at h
      obtain ⟨rfl, rfl⟩ := h
      exact .parsed hparse
  | insert id map =>
    simp only [callStep, Option.some.injEq, Prod.mk.injEq] at h
    obtain ⟨rfl, rfl⟩ := h
    exact .inserted
  | reread id =>
    cases hc : c.lookup id with
    | some map =>
      have hget := BeatmapCache.get_of_some hc
      simp only [callStep, hget, Option.some.injEq, Prod.mk.injEq] at h
      obtain ⟨rfl, rfl⟩ := h
      have hmove : Moves rosu c (.reread id) (c.get id).2 (.done (.ok map)) := .reread hc
      rwa [hget] at hmove
    | none =>
      have hget := BeatmapCache.get_of_none hc
      simp only [callStep, hget, Option.some.injEq, Prod.mk.injEq] at h
      obtain ⟨rfl, rfl⟩ := h
      have hmove : Moves rosu c (.reread id) (c.get id).2 (.done (.error .missingBeatmap)) :=
        .evicted hc
      rwa [hget] at hmove
  | uncached bytes =>
    simp only [callStep, Option.some.injEq, Prod.mk.injEq] at h
    obtain ⟨rfl, rfl⟩ := h
    exact .uncached
  | done result => simp only [callStep, reduceCtorEq] at h

/-! ## One call alone -/

/-- A call that nobody interrupts does what the sequential function does. -/
theorem solo_parseBeatmapCached (bytes : ByteArray) (c : BeatmapCache Map) :
    Solo (callStep rosu) (c, .ofBytes bytes)
      ((parseBeatmapCached rosu bytes c).2, .done (parseBeatmapCached rosu bytes c).1) := by
  have hway := serves_parseBeatmapCached rosu bytes c
  generalize parseBeatmapCached rosu bytes c = r at hway ⊢
  cases hway with
  | uncached hid =>
    -- one turn: parse
    rw [Call.ofBytes, hid]
    exact .single rfl
  | hit id map hid hc =>
    -- one turn: look up
    rw [Call.ofBytes, hid]
    refine .single ?_
    simp only [callStep, BeatmapCache.get_of_some hc]
  | unparsable id err hid hc hparse =>
    -- two turns: look up, parse
    rw [Call.ofBytes, hid]
    refine .head (b := ((c.get id).2, .parse id bytes)) ?_ (.single ?_)
    · simp only [callStep, BeatmapCache.get_of_none hc]
    · simp only [callStep, hparse]
  | parsed id map hid hc hparse =>
    -- four turns: look up, parse, insert, read again
    rw [Call.ofBytes, hid]
    have hread := BeatmapCache.get_of_some (BeatmapCache.lookup_insert_self (c.get id).2 id map)
    refine .head (b := ((c.get id).2, .parse id bytes)) ?_
      (.head (b := ((c.get id).2, .insert id map)) ?_
        (.head (b := ((c.get id).2.insert id map, .reread id)) rfl (.single ?_)))
    · simp only [callStep, BeatmapCache.get_of_none hc]
    · simp only [callStep, hparse]
    · simp only [callStep, hread]

/-! ## A system of calls -/

variable {ι : Type} [DecidableEq ι]

/-- A cache and any number of requests that have not had a turn yet.  There need not be finitely
    many: a request that has not arrived yet is one whose call has not had its first turn. -/
def callsOn (c : BeatmapCache Map) (requests : ι → Files × Option BeatmapSource) :
    Sys (BeatmapCache Map) (Call Map) ι :=
  ⟨c, fun i => .ofRequest (requests i).1 (requests i).2⟩

/-- `MissingBeatmap` has been answered to no request with a source. -/
def NoSpuriousMissing (requests : ι → Files × Option BeatmapSource)
    (s : Sys (BeatmapCache Map) (Call Map) ι) : Prop :=
  ∀ i, s.threads i = .done (.error .missingBeatmap) → (requests i).2.bind (·.source) = none

/-- The next turn of call `i` evicts no entry that another call has inserted and is still to read
    again.  It is a condition on the state before the turn, about the victim that the insertion
    would have. -/
def KeepsPending (s : Sys (BeatmapCache Map) (Call Map) ι) (i : ι) : Prop :=
  ∀ id map id', s.threads i = .insert id map → s.shared.victim id = some id' →
    ∀ j, s.threads j ≠ .reread id'

/-- The assertion that carries the proof: a call about to read again finds its entry, and a
    `MissingBeatmap` answer is deserved.  Only another call's insertion can spoil it, and only by
    evicting the entry. -/
def FindsAgain (own : Option BeatmapSource) (c : BeatmapCache Map) (call : Call Map) : Prop :=
  (∀ id, call = .reread id → (c.lookup id).isSome) ∧
    (call = .done (.error .missingBeatmap) → own.bind (·.source) = none)

/-- At the start no call has inserted anything, and the error is a missing source's. -/
theorem findsAgain_start (c : BeatmapCache Map) (source : Option BeatmapSource) :
    FindsAgain source c (.ofRequest fs source : Call Map) := by
  unfold Call.ofRequest
  cases hb : requestBytes fs source with
  | error err =>
    refine ⟨by simp, ?_⟩
    intro h
    -- no source, or a file that cannot be read; the latter is another error
    rcases requestBytes_error fs hb with ⟨hnone, _⟩ | ⟨why, rfl⟩
    · exact hnone
    · cases h
  | ok bytes =>
    show FindsAgain source c (Call.ofBytes bytes)
    unfold Call.ofBytes
    cases parseBeatmapId bytes with
    | none => exact ⟨by simp, by simp⟩
    | some id => exact ⟨by simp, by simp⟩

/-- A call's own turn: after an insertion the entry is there, and a re-read finds it. -/
theorem findsAgain_own {own : Option BeatmapSource} {c c' : BeatmapCache Map}
    {call call' : Call Map} (h : FindsAgain own c call) (hmove : Moves rosu c call c' call') :
    FindsAgain own c' call' := by
  cases hmove with
  | found hc => exact ⟨by simp, by simp⟩
  | missed hc => exact ⟨by simp, by simp⟩
  | unparsable hparse =>
    obtain ⟨why, rfl⟩ := parseBytes_error rosu hparse
    exact ⟨by simp, by simp⟩
  | parsed hparse => exact ⟨by simp, by simp⟩
  | @inserted id map =>
    refine ⟨?_, by simp⟩
    intro id' hid'
    obtain rfl : id = id' := by simpa using hid'
    rw [BeatmapCache.lookup_insert_self]
    rfl
  | reread hc => exact ⟨by simp, by simp⟩
  | @evicted id hc =>
    -- the one turn that answers the error without cause, and the assertion excludes it
    have hthere := h.1 id rfl
    rw [hc] at hthere
    cases hthere
  | @uncached bytes =>
    refine ⟨by simp, ?_⟩
    intro hdone
    obtain ⟨why, hwhy⟩ := parseBytes_error rosu (Call.done.inj hdone)
    cases hwhy

/-- Another call's turn: an insertion that does not evict the entry leaves it there. -/
theorem findsAgain_stable {own : Option BeatmapSource} {c c' : BeatmapCache Map}
    {call call' other : Call Map} (h : FindsAgain own c other)
    (hkeeps : ∀ id map id', call = .insert id map → c.victim id = some id' → other ≠ .reread id')
    (hmove : Moves rosu c call c' call') : FindsAgain own c' other := by
  refine ⟨?_, h.2⟩
  intro id' hother
  have hthere := h.1 id' hother
  cases hmove with
  | found hc => rwa [BeatmapCache.lookup_get]
  | missed hc => rwa [BeatmapCache.lookup_get]
  | unparsable hparse => exact hthere
  | parsed hparse => exact hthere
  | @inserted id map =>
    by_cases heq : id' = id
    · rw [heq, BeatmapCache.lookup_insert_self]
      rfl
    · have hvictim : c.victim id ≠ some id' := fun hv => hkeeps id map id' rfl hv hother
      rw [BeatmapCache.lookup_insert_ne c map heq, if_neg hvictim]
      exact hthere
  | reread hc => rwa [BeatmapCache.lookup_get]
  | evicted hc => rwa [BeatmapCache.lookup_get]
  | uncached => exact hthere

/-- In a run of steps that keep pending entries, every call finds again what it inserted. -/
theorem findsAgain_run {requests : ι → Files × Option BeatmapSource} {c : BeatmapCache Map}
    {s : Sys (BeatmapCache Map) (Call Map) ι}
    (h : RunWhere (callStep rosu) KeepsPending (callsOn c requests) s) (i : ι) :
    FindsAgain (requests i).2 s.shared (s.threads i) := by
  have hasserted : Threads.Asserted (fun _ => True)
      (fun i c call => FindsAgain (requests i).2 c call) s := by
    refine h.assertions ?_ ?_ ⟨trivial, fun j => findsAgain_start _ c _⟩
    · intro s i c' call' _ hA hstep
      exact ⟨trivial, findsAgain_own rosu (hA.2 i) (callStep_moves hstep)⟩
    · intro s i j c' call' _ hkeeps hA hstep
      refine findsAgain_stable rosu (hA.2 j) ?_ (callStep_moves hstep)
      intro id map id' hcall hv
      exact hkeeps id map id' hcall hv j
  exact hasserted.2 i

/-- A request without a source has its answer from the start and takes no turn. -/
theorem no_source_done {requests : ι → Files × Option BeatmapSource} {c : BeatmapCache Map}
    {s : Sys (BeatmapCache Map) (Call Map) ι} (h : Run (callStep rosu) (callsOn c requests) s)
    {j : ι} (hj : (requests j).2.bind (·.source) = none) :
    s.threads j = .done (.error .missingBeatmap) := by
  refine h.invariant (J := fun s => s.threads j = .done (.error .missingBeatmap)) ?_ ?_
  · -- no step changes it
    rintro s s' i - ⟨c', call', hstep, rfl⟩ hdone
    by_cases hij : j = i
    · subst hij
      rw [hdone] at hstep
      cases hstep
    · show Function.update s.threads i call' j = _
      rw [Function.update_of_ne hij, hdone]
  · -- it is so at the start
    show Call.ofRequest (requests j).1 (requests j).2 = _
    rw [Call.ofRequest, requestBytes_of_no_source _ hj]

/-- An insertion that evicts a pending entry leads to the error: let the call whose entry is
    gone have the next turn. -/
theorem evicts_pending_missing {s : Sys (BeatmapCache Map) (Call Map) ι} {i j : ι}
    {id id' : UInt32} {map : Map} (hi : s.threads i = .insert id map)
    (hv : s.shared.victim id = some id')
    (hj : s.threads j = .reread id') :
    ∃ s', Run (callStep rosu) s s' ∧ s'.threads j = .done (.error .missingBeatmap) := by
  -- the two are different calls, and the entry is gone once the first has inserted
  have hne : j ≠ i := by
    rintro rfl
    rw [hi] at hj
    cases hj
  have hid : id' ≠ id := BeatmapCache.victim_ne hv
  have hgone : (s.shared.insert id map).lookup id' = none := by
    rw [BeatmapCache.lookup_insert_ne _ map hid, if_pos hv]
  have hinsert : StepAt (callStep rosu) i s
      ⟨s.shared.insert id map, Function.update s.threads i (.reread id)⟩ :=
    ⟨_, _, by rw [hi]; rfl, rfl⟩
  have hpending : Function.update s.threads i (.reread id) j = .reread id' := by
    rw [Function.update_of_ne hne, hj]
  obtain ⟨c', hreread⟩ : ∃ c', callStep rosu (s.shared.insert id map) (.reread id')
      = some (c', .done (.error .missingBeatmap)) := by
    simp only [callStep, BeatmapCache.get_of_none hgone]
    exact ⟨_, rfl⟩
  have hrun : Run (callStep rosu) s
      ⟨s.shared.insert id map, Function.update s.threads i (.reread id)⟩ :=
    Relation.ReflTransGen.single ⟨i, trivial, hinsert⟩
  refine ⟨_, hrun.snoc (i := j) ⟨c', _, ?_, rfl⟩, Function.update_self ..⟩
  show callStep rosu (s.shared.insert id map) (Function.update s.threads i (.reread id) j) = _
  rw [hpending]
  exact hreread

/-- **`MissingBeatmap` under concurrency.**  A run whose steps keep pending entries answers it
    only to requests without a source; and every run does so if and only if every reachable
    step keeps pending entries. -/
theorem no_spurious_missing_iff (c : BeatmapCache Map)
    (requests : ι → Files × Option BeatmapSource) :
    (∀ s, RunWhere (callStep rosu) KeepsPending (callsOn c requests) s →
      NoSpuriousMissing requests s) ∧
    ((∀ s, Run (callStep rosu) (callsOn c requests) s → NoSpuriousMissing requests s) ↔
      ∀ s, Run (callStep rosu) (callsOn c requests) s → ∀ i, KeepsPending s i) := by
  have hkept : ∀ s, RunWhere (callStep rosu) KeepsPending (callsOn c requests) s →
      NoSpuriousMissing requests s := by
    intro s h i hdone
    exact (findsAgain_run rosu h i).2 hdone
  refine ⟨hkept, ?_, ?_⟩
  · -- a violation is one turn away from the error, at a call that had a source
    intro hall s hs i id map id' hi hv j hj
    obtain ⟨s', hs', hdone⟩ := evicts_pending_missing rosu hi hv hj
    have hnone := hall s' (Relation.ReflTransGen.trans hs hs') j hdone
    have hstart := no_source_done rosu hs hnone
    rw [hj] at hstart
    cases hstart
  · -- a run all of whose states keep pending entries is a run of such steps
    intro hall s hs
    refine hkept s ?_
    induction hs with
    | refl => exact Relation.ReflTransGen.refl
    | @tail s₁ s₂ hrun hlast ih =>
      obtain ⟨i, _, hi⟩ := hlast
      exact Relation.ReflTransGen.tail ih ⟨i, hall s₁ hrun i, hi⟩

/-- Two requests with beatmaps of different ids. -/
def twoSongs : Bool → Files × Option BeatmapSource
  | false => (noFiles, some (contentSource songA))
  | true => (noFiles, some (contentSource songC))

/-- In a cache of capacity one, the second call inserts between the insertion and the re-read
    of the first, whose beatmap has been parsed. -/
theorem spurious_missing_of_two_songs :
    RosuPp.sample.fromBytes songA.toUTF8 = .ok songA.toUTF8 ∧
      ∃ s, Run (callStep RosuPp.sample) (callsOn (.new 1) twoSongs) s ∧
        s.threads false = .done (.error .missingBeatmap) ∧ ¬ NoSpuriousMissing twoSongs s := by
  have hstart : callsOn (.new 1 : BeatmapCache ByteArray) twoSongs
      = ⟨.new 1, fun b => if b then .lookup 2 songC.toUTF8 else .lookup 1 songA.toUTF8⟩ := by
    have hcalls : ∀ b, (Call.ofRequest (twoSongs b).1 (twoSongs b).2 : Call ByteArray)
        = if b then .lookup 2 songC.toUTF8 else .lookup 1 songA.toUTF8 := by
      intro b
      cases b with
      | false =>
        show Call.ofBytes songA.toUTF8 = _
        simp only [Call.ofBytes, parseBeatmapId_songA, Bool.false_eq_true, if_false]
      | true =>
        show Call.ofBytes songC.toUTF8 = _
        simp only [Call.ofBytes, parseBeatmapId_songC, if_true]
    unfold callsOn
    rw [funext hcalls]
  -- three turns each: look up, parse, insert; then the first call reads again
  have hrun : Run (callStep RosuPp.sample) _ _ := Threads.run_exec
    [false, false, false, true, true, true, false] (callsOn (.new 1) twoSongs)
  have hdone : (Threads.exec (callStep RosuPp.sample)
      [false, false, false, true, true, true, false] (callsOn (.new 1) twoSongs)).threads false
        = .done (.error .missingBeatmap) := by
    rw [hstart]
    rfl
  refine ⟨rfl, _, hrun, hdone, ?_⟩
  intro hno
  have hnone := hno false hdone
  cases hnone

/-! ## What calls answer -/

/-- Some request of the system carries these bytes. -/
def CarriedBy (requests : ι → Files × Option BeatmapSource) (bytes : ByteArray) : Prop :=
  ∃ i, requestBytes (requests i).1 (requests i).2 = .ok bytes

/-- Bytes with the same id parse alike: in particular when they are always equal.  The cache takes
    this for granted, as it never compares bytes; where it fails, a call may be answered with
    another call's beatmap. -/
def IdsDecide (sent : ByteArray → Prop) : Prop :=
  ∀ bytes bytes' id, sent bytes → sent bytes' → parseBeatmapId bytes = some id →
    parseBeatmapId bytes' = some id → rosu.fromBytes bytes = rosu.fromBytes bytes'

/-- One text cannot disagree with itself. -/
theorem idsDecide_single (own : ByteArray) : IdsDecide rosu fun bytes => bytes = own := by
  rintro _ _ id rfl rfl _ _
  rfl

/-- Where a call stands on its way from its own bytes to its own answer.  Only the failing re-read
    leads off the track, and it only befalls a call whose bytes parse. -/
def OnTrack (own : Except Error ByteArray) : Call Map → Prop
  | .lookup id bytes => own = .ok bytes ∧ parseBeatmapId bytes = some id
  | .parse id bytes => own = .ok bytes ∧ parseBeatmapId bytes = some id
  | .insert id map =>
    ∃ bytes, own = .ok bytes ∧ parseBeatmapId bytes = some id ∧ parseBytes rosu bytes = .ok map
  | .reread id =>
    ∃ bytes map, own = .ok bytes ∧ parseBeatmapId bytes = some id ∧
      parseBytes rosu bytes = .ok map
  | .uncached bytes => own = .ok bytes
  | .done result =>
    result = own.bind (parseBytes rosu) ∨
      result = .error .missingBeatmap ∧ ∃ map, own.bind (parseBytes rosu) = .ok map

/-- A call starts on its track: with its own bytes, or with the error of having none. -/
theorem onTrack_start (source : Option BeatmapSource) :
    OnTrack rosu (requestBytes fs source) (.ofRequest fs source) := by
  unfold Call.ofRequest
  cases hb : requestBytes fs source with
  | error err => exact Or.inl rfl
  | ok bytes =>
    show OnTrack rosu (.ok bytes) (Call.ofBytes bytes)
    unfold Call.ofBytes
    cases hid : parseBeatmapId bytes with
    | none => exact rfl
    | some id => exact ⟨rfl, hid⟩

/-- On a coherent cache a resident map is what the call's own bytes parse to. -/
theorem resident_parses {sent : ByteArray → Prop} {c : BeatmapCache Map} {bytes : ByteArray}
    {id : UInt32} {map : Map} (hids : IdsDecide rosu sent)
    (hcoh : BeatmapCache.Coherent rosu sent c) (hsent : sent bytes)
    (hid : parseBeatmapId bytes = some id) (hc : c.lookup id = some map) :
    parseBytes rosu bytes = .ok map := by
  obtain ⟨other, hother, hid', hparse⟩ := hcoh id map hc
  rw [parseBytes_eq_ok, hids bytes other id hsent hother hid hid', hparse]

/-- **One turn** keeps the cache coherent and the call on its track. -/
theorem onTrack_step {sent : ByteArray → Prop} {own : Except Error ByteArray}
    {c c' : BeatmapCache Map} {call call' : Call Map} (hids : IdsDecide rosu sent)
    (hown : ∀ bytes, own = .ok bytes → sent bytes) (hcoh : BeatmapCache.Coherent rosu sent c)
    (h : OnTrack rosu own call) (hmove : Moves rosu c call c' call') :
    BeatmapCache.Coherent rosu sent c' ∧ OnTrack rosu own call' := by
  cases hmove with
  | @found id bytes map hc =>
    obtain ⟨hb, hid⟩ := h
    have hparse := resident_parses rosu hids hcoh (hown bytes hb) hid hc
    refine ⟨hcoh.get id, Or.inl ?_⟩
    rw [hb]
    exact hparse.symm
  | missed hc => exact ⟨hcoh.get _, h⟩
  | unparsable hparse =>
    refine ⟨hcoh, Or.inl ?_⟩
    rw [h.1]
    exact hparse.symm
  | @parsed id bytes map hparse => exact ⟨hcoh, bytes, h.1, h.2, hparse⟩
  | @inserted id map =>
    -- the one turn that adds an entry, and it is the parse of the call's own bytes
    obtain ⟨bytes, hb, hid, hparse⟩ := h
    exact ⟨hcoh.insert (hown bytes hb) hid ((parseBytes_eq_ok rosu).mp hparse),
      bytes, map, hb, hid, hparse⟩
  | @reread id map hc =>
    obtain ⟨bytes, _, hb, hid, _⟩ := h
    have hparse := resident_parses rosu hids hcoh (hown bytes hb) hid hc
    refine ⟨hcoh.get id, Or.inl ?_⟩
    rw [hb]
    exact hparse.symm
  | @evicted id hc =>
    -- off the track, by the failing re-read
    obtain ⟨bytes, map, hb, hid, hparse⟩ := h
    refine ⟨hcoh.get id, Or.inr ⟨rfl, map, ?_⟩⟩
    rw [hb]
    exact hparse
  | uncached =>
    refine ⟨hcoh, Or.inl ?_⟩
    rw [show own = .ok _ from h]
    rfl

/-- Every run from a coherent cache keeps the cache coherent and every call on its track. -/
theorem onTrack_run {sent : ByteArray → Prop} {requests : ι → Files × Option BeatmapSource}
    {c : BeatmapCache Map} {s : Sys (BeatmapCache Map) (Call Map) ι} (hids : IdsDecide rosu sent)
    (hcarried : ∀ bytes, CarriedBy requests bytes → sent bytes)
    (hcoh : BeatmapCache.Coherent rosu sent c) (h : Run (callStep rosu) (callsOn c requests) s) :
    BeatmapCache.Coherent rosu sent s.shared ∧
      ∀ i, OnTrack rosu (requestBytes (requests i).1 (requests i).2) (s.threads i) := by
  refine h.assertions (I := BeatmapCache.Coherent rosu sent)
    (A := fun i _ call => OnTrack rosu (requestBytes (requests i).1 (requests i).2) call)
    ?_ ?_ ⟨hcoh, fun j => onTrack_start rosu _ _⟩
  · intro s i c' call' _ hA hstep
    exact onTrack_step rosu hids (fun bytes hb => hcarried bytes ⟨i, hb⟩) hA.1 (hA.2 i)
      (callStep_moves hstep)
  · -- where a call stands does not depend on the cache, so others do not disturb it
    intro s i j c' call' _ _ hA _
    exact hA.2 j

/-- The caches that calls with bytes in `sent` can leave behind, in any interleaving.  Results about
    a cache in use are about these, since nobody knows what has been served before. -/
def Reachable (sent : ByteArray → Prop) (c : BeatmapCache Map) : Prop :=
  ∃ (κ : Type) (_ : DecidableEq κ) (size : Nat) (requests : κ → Files × Option BeatmapSource)
    (s : Sys (BeatmapCache Map) (Call Map) κ),
    (∀ bytes, CarriedBy requests bytes → sent bytes) ∧
      Run (callStep rosu) (callsOn (.new size) requests) s ∧ s.shared = c

variable {rosu} in
/-- Where ids decide what is parsed, such caches are coherent. -/
theorem Reachable.coherent {sent : ByteArray → Prop} {c : BeatmapCache Map}
    (hids : IdsDecide rosu sent) (h : Reachable rosu sent c) :
    BeatmapCache.Coherent rosu sent c := by
  obtain ⟨κ, _, size, requests, s, hcarried, hrun, rfl⟩ := h
  exact (onTrack_run rosu hids hcarried (BeatmapCache.Coherent.new size) hrun).1

/-- Without evictions of pending entries the answers are those of the calls' own bytes. -/
theorem done_of_keepsPending {sent : ByteArray → Prop}
    {requests : ι → Files × Option BeatmapSource} {c : BeatmapCache Map}
    {s : Sys (BeatmapCache Map) (Call Map) ι} (hids : IdsDecide rosu sent)
    (hcarried : ∀ bytes, CarriedBy requests bytes → sent bytes)
    (hcoh : BeatmapCache.Coherent rosu sent c)
    (h : RunWhere (callStep rosu) KeepsPending (callsOn c requests) s) {i : ι}
    {result : Except Error Map} (hdone : s.threads i = .done result) :
    result = (requestBytes (requests i).1 (requests i).2).bind (parseBytes rosu) := by
  have htrack := (onTrack_run rosu hids hcarried hcoh h.run).2 i
  rw [hdone] at htrack
  rcases htrack with hown | ⟨hmissing, map, hparse⟩
  · exact hown
  · -- the spurious error: but such a run only answers it to requests without bytes
    subst hmissing
    have hnone := (findsAgain_run rosu h i).2 hdone
    rw [requestBytes_of_no_source _ hnone] at hparse
    cases hparse

/-- On a coherent cache the sequential function answers the parse of the bytes. -/
theorem parseBeatmapCached_coherent {sent : ByteArray → Prop} {c : BeatmapCache Map}
    {bytes : ByteArray} (hids : IdsDecide rosu sent) (hcoh : BeatmapCache.Coherent rosu sent c)
    (hsent : sent bytes) : (parseBeatmapCached rosu bytes c).1 = parseBytes rosu bytes := by
  rcases parseBeatmapCached_answer rosu hcoh bytes with
    hfresh | ⟨id, other, map, hid, hother, hid', hparse, hans⟩
  · -- the call parsed its own bytes
    exact hfresh
  · -- it was served another text with the same id
    rw [hans, eq_comm, parseBytes_eq_ok, hids bytes other id hsent hother hid hid', hparse]

/-- A request that nobody interrupts. -/
theorem solo_ofRequest {sent : ByteArray → Prop} {c : BeatmapCache Map}
    (hids : IdsDecide rosu sent) (hcoh : BeatmapCache.Coherent rosu sent c)
    {source : Option BeatmapSource}
    (hown : ∀ bytes, requestBytes fs source = .ok bytes → sent bytes) :
    ∃ c', Solo (callStep rosu) (c, .ofRequest fs source)
      (c', .done ((requestBytes fs source).bind (parseBytes rosu))) := by
  unfold Call.ofRequest
  cases hb : requestBytes fs source with
  | error err => exact ⟨_, Relation.ReflTransGen.refl⟩
  | ok bytes =>
    have hsolo := solo_parseBeatmapCached rosu bytes c
    rw [parseBeatmapCached_coherent rosu hids hcoh (hown bytes hb)] at hsolo
    exact ⟨_, hsolo⟩

end PpService
