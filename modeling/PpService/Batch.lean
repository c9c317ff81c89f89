/-
  `Calculator::batch`: up to `MAX_BATCH_SIZE` performance requests, run by rayon.

  The workers are calls on the shared cache like any others, so a batch is a system of calls
  (`batchRequests`): one for each request and any number for whatever else the service is doing.
  After its load a worker only computes (`finishPerformance`), which nobody can see.

  `collect::<Result<Vec<_>>>` answers the responses in the order of the requests if all are
  `Ok`, and otherwise any one of the errors: it stops at the first error it comes to know of,
  and which one that is, is up to the scheduler.  `BatchReturns` says which answers a state of
  the system allows.

  1. **Agreement.**  A batch that succeeds answers for each request what it gets alone, from an
     empty cache; and it does not succeed if one of them fails alone.
  2. **Failure.**  The error is that of some request that fails alone, and every one of these
     can be it.  So the error depends on the schedule, unless they all fail alike.

  How a worker fares is read off its call (`workerResult`), and what `collect` makes of the
  workers is a relation, not a function: of two workers that fail, either error can be the one
  that is answered.  So (1) holds of every schedule, and (2) says for every schedule which errors
  are possible, and for every failing request that some schedule ends with its error
  (`failing_worker_first`: let its worker run before the others).
-/
import PpService.Interleaving

namespace PpService

open Proto (BeatmapSource PerformanceRequest PerformanceResponse BatchRequest BatchResponse)
open Threads (Sys Run RunWhere)

variable {Map Mods GD GP : Type} (rosu : RosuPp Map Mods GD GP) (fs : Files)

/-- `MAX_BATCH_SIZE`. -/
def maxBatchSize : Nat := 100

/-! ## A request on its own -/

/-- `performance` from the parsed map on.  A worker does all of this on its own, so the only thing a
    batch shares with the rest of the service is the cache. -/
def finishPerformance (req : PerformanceRequest) (map : Map) : Except Error PerformanceResponse :=
  (Calculator.checkSuspicion rosu map).bind fun map =>
    (Calculator.convertLoaded rosu (.ofField req.mode) req.difficultySettings map).bind fun map =>
      .ok (performanceToProto (rosu.calculatePerformance (Calculator.buildPerformance rosu req map))
        (effectiveCs (rosu.data map).cs req.difficultySettings))

/-- Without bytes a request ends with its own error and leaves the cache alone. -/
theorem performance_of_error {req : PerformanceRequest} {err : Error}
    (h : requestBytes fs req.beatmap = .error err) (c : BeatmapCache Map) :
    Calculator.performance rosu fs req c = (.error err, c) := by
  rw [Calculator.performance, Calculator.loadAndConvert, loadBeatmap_of_error rosu fs h]
  rfl

/-- With bytes it is the one call that uses the cache, then a computation. -/
theorem performance_of_ok {req : PerformanceRequest} {bytes : ByteArray}
    (h : requestBytes fs req.beatmap = .ok bytes) (c : BeatmapCache Map) :
    Calculator.performance rosu fs req c
      = thenPure (parseBeatmapCached rosu bytes c) (finishPerformance rosu req) := by
  rw [Calculator.performance, Calculator.loadAndConvert, loadBeatmap_of_ok rosu fs h,
    thenPure_thenPure, thenPure_thenPure]
  rfl

/-- What a request gets alone, on an empty cache: the answer that a batch is measured by. -/
def alone (size : Nat) (req : PerformanceRequest) : Except Error PerformanceResponse :=
  (Calculator.performance rosu fs req (.new size)).1

/-- On an empty cache the call parses, whatever the capacity. -/
theorem alone_eq (size : Nat) (req : PerformanceRequest) :
    alone rosu fs size req
      = ((requestBytes fs req.beatmap).bind (parseBytes rosu)).bind
          (finishPerformance rosu req) := by
  unfold alone
  cases hb : requestBytes fs req.beatmap with
  | error err =>
    rw [performance_of_error rosu fs hb]
    rfl
  | ok bytes =>
    rw [performance_of_ok rosu fs hb, thenPure, parseBeatmapCached_new]
    rfl

/-! ## A batch among other requests -/

variable {κ : Type} [DecidableEq κ]

/-- The requests of a batch, and whatever else the service is asked at the time. -/
def batchRequests (req : BatchRequest) (others : κ → Files × Option BeatmapSource) :
    Fin req.requests.length ⊕ κ → Files × Option BeatmapSource :=
  Sum.elim (fun i => (fs, (req.requests.get i).beatmap)) others

/-- The calls of a batch and of the others, none of which has had a turn. -/
abbrev BatchSys (Map κ : Type) (req : BatchRequest) : Type :=
  Sys (BeatmapCache Map) (Call Map) (Fin req.requests.length ⊕ κ)

/-- What the worker on request `i` has come to, once it has its beatmap.  Whether its response is
    computed by then is not to be seen from outside, as nobody else has a part in it. -/
def workerResult (req : BatchRequest) (s : BatchSys Map κ req) (i : Fin req.requests.length) :
    Option (Except Error PerformanceResponse) :=
  match s.threads (.inl i) with
  | .done loaded => some (loaded.bind (finishPerformance rosu (req.requests.get i)))
  -- still on its way
  | _ => none

/-- The answers `batch` can give in a state of the system: too many requests, all the responses
    once every worker has one, or the error of any worker that has failed. -/
inductive BatchReturns (req : BatchRequest) (s : BatchSys Map κ req) :
    Except Error BatchResponse → Prop where
  -- refused before any worker starts
  | tooLarge (hsize : maxBatchSize < req.requests.length) :
    BatchReturns req s (.error (.batchTooLarge req.requests.length maxBatchSize))
  -- every worker has succeeded
  | collected (hsize : req.requests.length ≤ maxBatchSize)
    (responses : Fin req.requests.length → PerformanceResponse)
    (hall : ∀ i, workerResult rosu req s i = some (.ok (responses i))) :
    BatchReturns req s (.ok { responses := List.ofFn responses })
  -- `collect` has come to know of this error, whatever the other workers are doing
  | failed (hsize : req.requests.length ≤ maxBatchSize) (i : Fin req.requests.length) (err : Error)
    (hi : workerResult rosu req s i = some (.error err)) : BatchReturns req s (.error err)

section

variable {rosu fs}
variable {sent : ByteArray → Prop} {req : BatchRequest}
  {others : κ → Files × Option BeatmapSource} {c : BeatmapCache Map} {s : BatchSys Map κ req}

omit [DecidableEq κ] in
/-- A worker has a result once its call has one. -/
theorem workerResult_eq_some {i : Fin req.requests.length}
    {result : Except Error PerformanceResponse} (h : workerResult rosu req s i = some result) :
    ∃ loaded, s.threads (.inl i) = .done loaded ∧
      result = loaded.bind (finishPerformance rosu (req.requests.get i)) := by
  unfold workerResult at h
  split at h
  · rename_i loaded hdone
    exact ⟨loaded, hdone, (Option.some.inj h).symm⟩
  · cases h

/-- A worker that succeeds has computed what its request gets alone. -/
theorem workerResult_ok (hids : IdsDecide rosu sent) (hreach : Reachable rosu sent c)
    (hcarried : ∀ bytes, CarriedBy (batchRequests fs req others) bytes → sent bytes)
    (hrun : Run (callStep rosu) (callsOn c (batchRequests fs req others)) s) (size : Nat)
    {i : Fin req.requests.length} {resp : PerformanceResponse}
    (h : workerResult rosu req s i = some (.ok resp)) :
    alone rosu fs size (req.requests.get i) = .ok resp := by
  obtain ⟨loaded, hdone, hresult⟩ := workerResult_eq_some h
  have htrack := (onTrack_run rosu hids hcarried (hreach.coherent hids) hrun).2 (.inl i)
  rw [hdone] at htrack
  rcases htrack with hown | ⟨hmissing, _⟩
  · rw [alone_eq, hresult, hown]
    rfl
  · -- an evicted entry is answered with an error, and the worker has succeeded
    rw [hmissing] at hresult
    cases hresult

/-- Without evictions of pending entries a worker has computed what its request gets alone,
    be it a response or an error. -/
theorem workerResult_alone (hids : IdsDecide rosu sent) (hreach : Reachable rosu sent c)
    (hcarried : ∀ bytes, CarriedBy (batchRequests fs req others) bytes → sent bytes)
    (hrun : RunWhere (callStep rosu) KeepsPending (callsOn c (batchRequests fs req others)) s)
    (size : Nat) {i : Fin req.requests.length} {result : Except Error PerformanceResponse}
    (h : workerResult rosu req s i = some result) :
    alone rosu fs size (req.requests.get i) = result := by
  obtain ⟨loaded, hdone, hresult⟩ := workerResult_eq_some h
  have hown := done_of_keepsPending rosu hids hcarried (hreach.coherent hids) hrun hdone
  rw [alone_eq, hresult, hown]
  rfl

/-- A batch that succeeds has a response for every request, so none of them fails alone. -/
theorem not_ok_of_failing (hids : IdsDecide rosu sent) (hreach : Reachable rosu sent c)
    (hcarried : ∀ bytes, CarriedBy (batchRequests fs req others) bytes → sent bytes)
    (hrun : Run (callStep rosu) (callsOn c (batchRequests fs req others)) s) (size : Nat)
    (hfails : ∃ item ∈ req.requests, ∃ err, alone rosu fs size item = .error err)
    (r : BatchResponse) : ¬ BatchReturns rosu req s (.ok r) := by
  intro hr
  obtain ⟨item, hitem, err, herr⟩ := hfails
  cases hr with
  | collected _ responses hall =>
    -- the response of the failing request would have to be what it gets alone
    obtain ⟨i, hi⟩ := List.get_of_mem hitem
    have hok := workerResult_ok hids hreach hcarried hrun size (hall i)
    rw [hi, herr] at hok
    cases hok

/-- Without evictions of pending entries the error of a batch is one that a request gets
    alone. -/
theorem error_of_failing (hids : IdsDecide rosu sent) (hreach : Reachable rosu sent c)
    (hcarried : ∀ bytes, CarriedBy (batchRequests fs req others) bytes → sent bytes)
    (hsize : req.requests.length ≤ maxBatchSize)
    (hrun : RunWhere (callStep rosu) KeepsPending (callsOn c (batchRequests fs req others)) s)
    (size : Nat) {err : Error} (hret : BatchReturns rosu req s (.error err)) :
    ∃ item ∈ req.requests, alone rosu fs size item = .error err := by
  cases hret with
  | tooLarge hlarge => omega
  | failed _ i err hi =>
    exact ⟨_, List.get_mem _ i, workerResult_alone hids hreach hcarried hrun size hi⟩

end

/-! ## Agreement -/

/-- **A batch agrees with single requests.**  `sent` are the bytes of the batch, of the other
    requests, and of those that filled the cache; bytes in it that have the same id parse
    alike. -/
theorem batch_agrees_with_alone {sent : ByteArray → Prop} {req : BatchRequest}
    {others : κ → Files × Option BeatmapSource} {c : BeatmapCache Map} {s : BatchSys Map κ req}
    (hids : IdsDecide rosu sent) (hreach : Reachable rosu sent c)
    (hcarried : ∀ bytes, CarriedBy (batchRequests fs req others) bytes → sent bytes)
    (hrun : Run (callStep rosu) (callsOn c (batchRequests fs req others)) s) (size : Nat) :
    (∀ r, BatchReturns rosu req s (.ok r) →
      r.responses.length = req.requests.length ∧
      ∀ (i : Nat) (hi : i < req.requests.length) (hi' : i < r.responses.length),
        alone rosu fs size req.requests[i] = .ok r.responses[i]) ∧
    ((∃ item ∈ req.requests, ∃ err, alone rosu fs size item = .error err) →
      ∀ r, ¬ BatchReturns rosu req s (.ok r)) := by
  constructor
  · -- the n-th response is that of the n-th request
    intro r hr
    cases hr with
    | collected hsize responses hall =>
      refine ⟨List.length_ofFn, fun i hi hi' => ?_⟩
      rw [List.getElem_ofFn]
      exact workerResult_ok hids hreach hcarried hrun size (hall ⟨i, hi⟩)
  · intro hfails r
    exact not_ok_of_failing hids hreach hcarried hrun size hfails r

/-- A request for a beatmap and nothing else. -/
def plainRequest (beatmap : Option BeatmapSource) : PerformanceRequest :=
  { beatmap, mode := none, difficultySettings := none, score := none }

/-- Nobody else uses the service. -/
def nobody : Empty → Files × Option BeatmapSource := Empty.elim

theorem reachable_new {sent : ByteArray → Prop} (size : Nat) : Reachable rosu sent (.new size) :=
  ⟨Empty, inferInstance, size, nobody, callsOn (.new size) nobody, fun _ ⟨i, _⟩ => i.elim,
    Relation.ReflTransGen.refl, rfl⟩

/-- One request on a new cache leaves a reachable cache behind. -/
theorem reachable_served {sent : ByteArray → Prop} (source : Option BeatmapSource)
    {bytes : ByteArray} (hb : requestBytes fs source = .ok bytes) (hsent : sent bytes)
    (size : Nat) : Reachable rosu sent (parseBeatmapCached rosu bytes (.new size)).2 := by
  have hstart : Call.ofRequest fs source = (Call.ofBytes bytes : Call Map) := by
    rw [Call.ofRequest, hb]
  have hsolo : Threads.Solo (callStep rosu) (.new size, Call.ofRequest fs source)
      ((parseBeatmapCached rosu bytes (.new size)).2,
        .done (parseBeatmapCached rosu bytes (.new size)).1) := by
    rw [hstart]
    exact solo_parseBeatmapCached rosu bytes (.new size)
  have hrun : Run (callStep rosu) (callsOn (.new size) fun _ : Unit => (fs, source)) _ :=
    Threads.Solo.runWhere (i := ()) hsolo fun _ _ => trivial
  refine ⟨Unit, inferInstance, size, fun _ => (fs, source), _, ?_, hrun, rfl⟩
  rintro bytes' ⟨_, hb'⟩
  rw [hb] at hb'
  rwa [← Except.ok.inj hb']

/-- A batch of two songs. -/
def songBatch : BatchRequest :=
  { requests := [plainRequest (some (contentSource songA)),
      plainRequest (some (contentSource songC))] }

theorem carried_songBatch {bytes : ByteArray}
    (h : CarriedBy (batchRequests noFiles songBatch nobody) bytes) :
    bytes = songA.toUTF8 ∨ bytes = songC.toUTF8 := by
  rcases h with ⟨⟨i, hi⟩ | i, hb⟩
  · match i, hi with
    | 0, _ => exact Or.inl (Except.ok.inj hb).symm
    | 1, _ => exact Or.inr (Except.ok.inj hb).symm
  · exact i.elim

/-- The two texts have different ids, so the ids decide. -/
theorem idsDecide_songs :
    IdsDecide RosuPp.sample fun bytes => bytes = songA.toUTF8 ∨ bytes = songC.toUTF8 := by
  rintro _ _ id (rfl | rfl) (rfl | rfl) hid hid'
  · rfl
  · -- 1 is not 2
    rw [parseBeatmapId_songA] at hid
    rw [parseBeatmapId_songC, ← hid] at hid'
    exact absurd hid' (by decide)
  · rw [parseBeatmapId_songC] at hid
    rw [parseBeatmapId_songA, ← hid] at hid'
    exact absurd hid' (by decide)
  · rfl

/-- The two workers taking turns. -/
def inTurn : List (Fin songBatch.requests.length ⊕ Empty) :=
  let first := .inl ⟨0, by decide⟩
  let second := .inl ⟨1, by decide⟩
  [first, second, first, second, first, second, first, second]

/-- Taking turns, both workers come to a response. -/
theorem songBatch_returns :
    ∃ r, r.responses.length = 2 ∧ BatchReturns RosuPp.sample songBatch
      (Threads.exec (callStep RosuPp.sample) inTurn
        (callsOn (.new 2) (batchRequests noFiles songBatch nobody))) (.ok r) := by
  have hstart : callsOn (.new 2 : BeatmapCache ByteArray) (batchRequests noFiles songBatch nobody)
      = ⟨.new 2, Sum.elim (fun i : Fin 2 => if i = 0 then .lookup 1 songA.toUTF8
          else .lookup 2 songC.toUTF8) Empty.elim⟩ := by
    unfold callsOn
    congr 1
    funext i
    rcases i with ⟨i, hi⟩ | i
    · match i, hi with
      | 0, _ =>
        show Call.ofBytes songA.toUTF8 = _
        rw [Call.ofBytes, parseBeatmapId_songA]
        rfl
      | 1, _ =>
        show Call.ofBytes songC.toUTF8 = _
        rw [Call.ofBytes, parseBeatmapId_songC]
        rfl
    · exact i.elim
  have hall : ∀ i, ∃ resp, workerResult RosuPp.sample songBatch
      (Threads.exec (callStep RosuPp.sample) inTurn
        (callsOn (.new 2) (batchRequests noFiles songBatch nobody))) i = some (.ok resp) := by
    rw [hstart]
    rintro ⟨i, hi⟩
    match i, hi with
    | 0, _ => exact ⟨_, rfl⟩
    | 1, _ => exact ⟨_, rfl⟩
  choose responses hresponses using hall
  exact ⟨_, List.length_ofFn, .collected (by decide) responses hresponses⟩

/-- A batch whose workers take turns: it answers, and as the theorem says. -/
theorem songBatch_agrees :
    ∃ s r, Run (callStep RosuPp.sample)
        (callsOn (.new 2) (batchRequests noFiles songBatch nobody)) s ∧
      BatchReturns RosuPp.sample songBatch s (.ok r) ∧
      r.responses.length = songBatch.requests.length ∧
      ∀ (i : Nat) (hi : i < songBatch.requests.length) (hi' : i < r.responses.length),
        alone RosuPp.sample noFiles 1 songBatch.requests[i] = .ok r.responses[i] := by
  have hrun : Run (callStep RosuPp.sample) _ _ :=
    Threads.run_exec inTurn (callsOn (.new 2) (batchRequests noFiles songBatch nobody))
  obtain ⟨r, -, hret⟩ := songBatch_returns
  have hagrees := batch_agrees_with_alone RosuPp.sample noFiles idsDecide_songs
    (reachable_new _ 2) (fun bytes hb => carried_songBatch hb) hrun 1
  exact ⟨_, r, hrun, hret, hagrees.1 r hret⟩

/-! ## Failure -/

/-- The batch from left to right on one thread, up to the first error: what `collect` would do
    without rayon, to compare with. -/
def batchSequential : List PerformanceRequest → BeatmapCache Map →
    Except Error (List PerformanceResponse) × BeatmapCache Map
  | [], c => (.ok [], c)
  | req :: rest, c =>
    match Calculator.performance rosu fs req c with
    -- the requests after it are not served at all
    | (.error err, c) => (.error err, c)
    | (.ok resp, c) => thenPure (batchSequential rest c) fun responses => .ok (resp :: responses)

/-- On a coherent cache a request gets what it gets alone, and leaves the cache coherent. -/
theorem performance_coherent {sent : ByteArray → Prop} {c : BeatmapCache Map}
    (hids : IdsDecide rosu sent) (hcoh : BeatmapCache.Coherent rosu sent c)
    {req : PerformanceRequest}
    (hown : ∀ bytes, requestBytes fs req.beatmap = .ok bytes → sent bytes) (size : Nat) :
    (Calculator.performance rosu fs req c).1 = alone rosu fs size req ∧
      BeatmapCache.Coherent rosu sent (Calculator.performance rosu fs req c).2 := by
  rw [alone_eq]
  cases hb : requestBytes fs req.beatmap with
  | error err =>
    rw [performance_of_error rosu fs hb]
    exact ⟨rfl, hcoh⟩
  | ok bytes =>
    rw [performance_of_ok rosu fs hb, thenPure,
      parseBeatmapCached_coherent rosu hids hcoh (hown bytes hb)]
    exact ⟨rfl, hcoh.served (hown bytes hb)⟩

/-- From left to right, the batch ends with the error of the first request that fails alone. -/
theorem batchSequential_first_error {sent : ByteArray → Prop} (hids : IdsDecide rosu sent)
    (size : Nat) {reqs : List PerformanceRequest} {c : BeatmapCache Map}
    (hcoh : BeatmapCache.Coherent rosu sent c)
    (hown : ∀ req ∈ reqs, ∀ bytes, requestBytes fs req.beatmap = .ok bytes → sent bytes)
    (hfails : ∃ req ∈ reqs, ∃ err, alone rosu fs size req = .error err) :
    ∃ before req after err, reqs = before ++ req :: after ∧
      (∀ r ∈ before, ∃ resp, alone rosu fs size r = .ok resp) ∧
      alone rosu fs size req = .error err ∧
      (batchSequential rosu fs reqs c).1 = .error err := by
  induction reqs generalizing c with
  | nil =>
    obtain ⟨req, hreq, _⟩ := hfails
    cases hreq
  | cons req rest ih =>
    obtain ⟨hans, hcoh'⟩ :=
      performance_coherent rosu fs hids hcoh (hown req List.mem_cons_self) size
    generalize hperf : Calculator.performance rosu fs req c = r at hans hcoh'
    obtain ⟨_ | resp, c'⟩ := r
    · -- the first request fails already: nothing comes before it
      refine ⟨[], req, rest, _, rfl, ?_, hans.symm, ?_⟩
      · intro r hr
        cases hr
      · rw [batchSequential, hperf]
    · -- the first request succeeds, so it is among those before the failing one
      have hrest : ∃ req ∈ rest, ∃ err, alone rosu fs size req = .error err := by
        obtain ⟨req', hreq', err, herr⟩ := hfails
        rcases List.mem_cons.mp hreq' with rfl | hmem
        · rw [herr] at hans
          cases hans
        · exact ⟨req', hmem, err, herr⟩
      obtain ⟨before, req', after, err, hsplit, hbefore, herr, hseq⟩ :=
        ih hcoh' (fun r hr => hown r (List.mem_cons_of_mem _ hr)) hrest
      refine ⟨req :: before, req', after, err, by rw [hsplit]; rfl, ?_, herr, ?_⟩
      · intro r hr
        rcases List.mem_cons.mp hr with rfl | hmem
        · exact ⟨resp, hans.symm⟩
        · exact hbefore r hmem
      · rw [batchSequential, hperf]
        show ((batchSequential rosu fs rest c').1.bind _) = _
        rw [hseq]
        rfl

/-- The worker of a request that fails alone can be the first to end: let it run before the
    others have had a turn. -/
theorem failing_worker_first {sent : ByteArray → Prop} {req : BatchRequest}
    {others : κ → Files × Option BeatmapSource} {c : BeatmapCache Map}
    (hids : IdsDecide rosu sent) (hcoh : BeatmapCache.Coherent rosu sent c)
    (hcarried : ∀ bytes, CarriedBy (batchRequests fs req others) bytes → sent bytes)
    (hsize : req.requests.length ≤ maxBatchSize) (size : Nat) {i : Fin req.requests.length}
    {err : Error} (herr : alone rosu fs size (req.requests.get i) = .error err) :
    ∃ s, RunWhere (callStep rosu) KeepsPending (callsOn c (batchRequests fs req others)) s ∧
      BatchReturns rosu req s (.error err) := by
  have hown : ∀ bytes, requestBytes fs (req.requests.get i).beatmap = .ok bytes → sent bytes :=
    fun bytes hb => hcarried bytes ⟨.inl i, hb⟩
  obtain ⟨c', hsolo⟩ := solo_ofRequest rosu fs hids hcoh hown
  refine ⟨_, Threads.Solo.runWhere (s := callsOn c (batchRequests fs req others))
    (i := Sum.inl i) hsolo ?_, .failed hsize i err ?_⟩
  · -- nobody else has inserted anything yet
    rintro c' call id map id' hcall hv j hj
    have hinsert : call = .insert id map := by simpa using hcall
    by_cases heq : j = .inl i
    · have hself : call = .reread id' := by simpa [heq] using hj
      rw [hinsert] at hself
      cases hself
    · apply Call.ofRequest_ne_reread _ _ id'
      show (callsOn c (batchRequests fs req others)).threads j = _
      simpa [heq] using hj
  · -- alone in the system, the worker gets what it gets alone
    unfold workerResult
    rw [alone_eq] at herr
    simp only [Function.update_self]
    exact congrArg some herr

/-- **How a batch fails.**  `c` is any cache that calls with bytes in `sent` can leave behind,
    and bytes in `sent` that have the same id parse alike.  No schedule succeeds if a request
    fails alone.  Where no pending entry is evicted the error is that of a request that fails
    alone, and it can be that of any of them; from left to right it is that of the first.  So
    it is the same in every schedule if the failing requests all look alike to `view`. -/
theorem batch_error_of_failing_request {sent : ByteArray → Prop} {req : BatchRequest}
    {others : κ → Files × Option BeatmapSource} {c : BeatmapCache Map}
    (hids : IdsDecide rosu sent) (hreach : Reachable rosu sent c)
    (hcarried : ∀ bytes, CarriedBy (batchRequests fs req others) bytes → sent bytes)
    (hsize : req.requests.length ≤ maxBatchSize) (size : Nat)
    (hfails : ∃ item ∈ req.requests, ∃ err, alone rosu fs size item = .error err) :
    (∀ s, Run (callStep rosu) (callsOn c (batchRequests fs req others)) s →
      ∀ r, ¬ BatchReturns rosu req s (.ok r)) ∧
    (∀ s err, RunWhere (callStep rosu) KeepsPending (callsOn c (batchRequests fs req others)) s →
      BatchReturns rosu req s (.error err) →
      ∃ item ∈ req.requests, alone rosu fs size item = .error err) ∧
    (∀ item ∈ req.requests, ∀ err, alone rosu fs size item = .error err →
      ∃ s, RunWhere (callStep rosu) KeepsPending (callsOn c (batchRequests fs req others)) s ∧
        BatchReturns rosu req s (.error err)) ∧
    ∃ before item after first, req.requests = before ++ item :: after ∧
      (∀ r ∈ before, ∃ resp, alone rosu fs size r = .ok resp) ∧
      alone rosu fs size item = .error first ∧
      (batchSequential rosu fs req.requests c).1 = .error first ∧
      ∀ {β : Type} (view : Error → β),
        (∀ r ∈ req.requests, ∀ err, alone rosu fs size r = .error err → view err = view first) →
        ∀ s err, RunWhere (callStep rosu) KeepsPending (callsOn c (batchRequests fs req others)) s →
          BatchReturns rosu req s (.error err) → view err = view first := by
  have hcoh := hreach.coherent hids
  refine ⟨?_, ?_, ?_, ?_⟩
  · -- it never succeeds
    intro s hrun r
    exact not_ok_of_failing hids hreach hcarried hrun size hfails r
  · -- its error is one of theirs
    intro s err hrun hret
    exact error_of_failing hids hreach hcarried hsize hrun size hret
  · -- and each of theirs can be it
    intro item hitem err herr
    obtain ⟨i, rfl⟩ := List.get_of_mem hitem
    exact failing_worker_first rosu fs hids hcoh hcarried hsize size herr
  · -- from left to right the first failing request decides, and all others look like it
    have hown : ∀ item ∈ req.requests, ∀ bytes,
        requestBytes fs item.beatmap = .ok bytes → sent bytes := by
      intro item hitem bytes hb
      obtain ⟨i, rfl⟩ := List.get_of_mem hitem
      exact hcarried bytes ⟨.inl i, hb⟩
    obtain ⟨before, item, after, first, hsplit, hbefore, hfirst, hseq⟩ :=
      batchSequential_first_error rosu fs hids size hcoh hown hfails
    refine ⟨before, item, after, first, hsplit, hbefore, hfirst, hseq, ?_⟩
    intro β view halike s err hrun hret
    obtain ⟨r, hr, herr⟩ := error_of_failing hids hreach hcarried hsize hrun size hret
    exact halike r hr err herr

/-! ### A batch with two failures -/

/-- A library that finds `songA` suspicious. -/
abbrev suspectingA :
    RosuPp ByteArray UInt32 (List DifficultyAttributes) (List PerformanceAttributes) :=
  RosuPp.suspecting 1

/-- A suspicious beatmap, and a request without a source. -/
def failingBatch : BatchRequest :=
  { requests := [plainRequest (some (contentSource songA)), plainRequest none] }

/-- Only one of its requests has bytes. -/
theorem carried_failingBatch {bytes : ByteArray}
    (h : CarriedBy (batchRequests noFiles failingBatch nobody) bytes) : bytes = songA.toUTF8 := by
  rcases h with ⟨⟨i, hi⟩ | i, hb⟩
  · match i, hi with
    | 0, _ => exact (Except.ok.inj hb).symm
    | 1, _ => cases hb
  · exact i.elim

/-- Alone, the first request is found suspicious. -/
theorem alone_suspicious : alone suspectingA noFiles 1 (plainRequest (some (contentSource songA)))
    = .error (.suspicious ⟨"Density"⟩) := by
  have hsusp : suspectingA.checkSuspicion songA.toUTF8 = .error ⟨"Density"⟩ := by
    simp only [suspectingA, RosuPp.suspecting, parseBeatmapId_songA, if_true]
  rw [alone_eq]
  show finishPerformance suspectingA (plainRequest (some (contentSource songA))) songA.toUTF8 = _
  rw [finishPerformance, Calculator.checkSuspicion, hsusp]
  rfl

/-- Alone, the second one has nothing to load. -/
theorem alone_missing :
    alone suspectingA noFiles 1 (plainRequest none) = .error .missingBeatmap := by
  rw [alone_eq]
  rfl

/-- Two schedules of one batch, two errors with two codes; from left to right it is the first. -/
theorem batch_error_depends_on_schedule :
    (∃ s, Run (callStep suspectingA)
        (callsOn (.new 1) (batchRequests noFiles failingBatch nobody)) s ∧
      BatchReturns suspectingA failingBatch s (.error (.suspicious ⟨"Density"⟩))) ∧
    (∃ s, Run (callStep suspectingA)
        (callsOn (.new 1) (batchRequests noFiles failingBatch nobody)) s ∧
      BatchReturns suspectingA failingBatch s (.error .missingBeatmap)) ∧
    (batchSequential suspectingA noFiles failingBatch.requests (.new 1)).1
      = .error (.suspicious ⟨"Density"⟩) ∧
    (Error.suspicious ⟨"Density"⟩).code ≠ Error.missingBeatmap.code := by
  have hfirst : ∀ (i : Fin failingBatch.requests.length) err,
      alone suspectingA noFiles 1 (failingBatch.requests.get i) = .error err →
      ∃ s, Run (callStep suspectingA)
          (callsOn (.new 1) (batchRequests noFiles failingBatch nobody)) s ∧
        BatchReturns suspectingA failingBatch s (.error err) := by
    intro i err herr
    obtain ⟨s, hrun, hret⟩ := failing_worker_first suspectingA noFiles (idsDecide_single _ _)
      (BeatmapCache.Coherent.new 1) (fun bytes hb => carried_failingBatch hb) (by decide) 1 herr
    exact ⟨s, hrun.run, hret⟩
  refine ⟨hfirst ⟨0, by decide⟩ _ alone_suspicious, hfirst ⟨1, by decide⟩ _ alone_missing, ?_,
    by decide⟩
  have hown : ∀ bytes, requestBytes noFiles (plainRequest (some (contentSource songA))).beatmap
      = .ok bytes → bytes = songA.toUTF8 := fun bytes hb => (Except.ok.inj hb).symm
  have hperf := (performance_coherent suspectingA noFiles (idsDecide_single _ _)
    (BeatmapCache.Coherent.new 1) hown 1).1
  rw [alone_suspicious] at hperf
  rw [failingBatch, batchSequential]
  generalize Calculator.performance suspectingA noFiles _ (BeatmapCache.new 1) = r at hperf ⊢
  obtain ⟨err | resp, c⟩ := r
  · have herr : err = .suspicious ⟨"Density"⟩ := Except.error.inj hperf
    rw [herr]
  · cases hperf

/-- The theorem at that batch: it succeeds in no schedule, and in some it has no source. -/
theorem failingBatch_fails :
    (¬ ∃ s r, Run (callStep suspectingA)
        (callsOn (.new 1) (batchRequests noFiles failingBatch nobody)) s ∧
      BatchReturns suspectingA failingBatch s (.ok r)) ∧
    ∃ s, RunWhere (callStep suspectingA) KeepsPending
        (callsOn (.new 1) (batchRequests noFiles failingBatch nobody)) s ∧
      BatchReturns suspectingA failingBatch s (.error .missingBeatmap) := by
  have hmissing : plainRequest none ∈ failingBatch.requests := by simp [failingBatch]
  obtain ⟨hnever, _, hattained, _⟩ := batch_error_of_failing_request suspectingA noFiles
    (idsDecide_single _ _) (reachable_new _ 1) (fun _ hb => carried_failingBatch hb) (by decide) 1
    ⟨plainRequest none, hmissing, _, alone_missing⟩
  refine ⟨?_, hattained _ hmissing _ alone_missing⟩
  rintro ⟨s, r, hrun, hret⟩
  exact hnever s hrun r hret

end PpService
