/-
  WHAT THE SCHEDULE DECIDES, and what it does not.

  1. **Hits.**  Every beatmap a call with an id is answered with comes out of `cache::get`, at
     its first read or at the second.  So in any interleaving, with room or without, the
     cache has counted one hit for each call that has been answered
     (`hits_count_answers`): the hits that `/health` shows are answers, not parses saved.

  2. **Contents.**  The turns use the ids of the calls one after the other (`Trace`), and once
     all calls have ended every id that parses has been used.  With room for all of them the
     cache then holds these and, up to its capacity, the ids that were used last before.
     Answers, contents and hits are therefore the same after any two schedules
     (`complete_runs_agree`).  The order of use is not, nor are the misses: of two calls for one
     new id the second counts one only if it looks before the first has inserted.

  The crux of (1) is that a call with an id is answered by a read that finds its id, and by
  nothing else, so the turn that answers it is the turn that counts (`hits_step`).  The crux of
  (2) is the trace: whatever the order of the turns, after all of them its distinct ids are the
  ids that parse (`mem_trace_iff`), so two finished runs have caches with the same ids, and
  coherent caches with the same ids have the same maps (`lookup_eq_of_ids`).
-/
import PpService.Capacity

namespace PpService

open Proto (BeatmapSource)
open Recency (uses touch)
open Threads (Sys Run RunWhere)

variable {Map Mods GD GP : Type} (rosu : RosuPp Map Mods GD GP) (fs : Files)
variable {ι : Type} [DecidableEq ι]

/-! ## Hits -/

/-- Where a call stands agrees with the id of its bytes: the id it looks up, inserts under and
    reads again is the one its bytes have. -/
def Named (own : Option UInt32) : Call Map → Prop
  | .lookup id _ => own = some id
  | .parse id _ => own = some id
  | .insert id _ => own = some id
  | .reread id => own = some id
  | .uncached _ => own = none
  | .done _ => True

theorem named_start (source : Option BeatmapSource) :
    Named (requestId (fs, source)) (.ofRequest fs source : Call Map) := by
  unfold Call.ofRequest requestId
  cases requestBytes fs source with
  | error err => exact trivial
  | ok bytes =>
    show Named (parseBeatmapId bytes) (Call.ofBytes bytes)
    unfold Call.ofBytes
    cases parseBeatmapId bytes with
    | none => exact rfl
    | some id => exact rfl

section

variable {rosu} {own : Option UInt32} {c c' : BeatmapCache Map} {call call' : Call Map}

/-- Every turn keeps the name. -/
theorem named_step (h : Named own call) (hmove : Moves rosu c call c' call') : Named own call' := by
  cases hmove with
  | found hc => exact trivial
  | missed hc => exact h
  | unparsable hparse => exact trivial
  | parsed hparse => exact h
  | inserted => exact h
  | reread hc => exact trivial
  | evicted hc => exact trivial
  | uncached => exact trivial

/-- A call for a text with an id that has its beatmap: the calls that have been answered out of the
    cache. -/
def Answered (own : Option UInt32) (call : Call Map) : Prop :=
  own ≠ none ∧ ∃ map, call = .done (.ok map)

/-- A turn counts a hit if it brings a call with an id its beatmap, and none otherwise.  A call for
    a text without an id is answered without the cache, which is why the id is asked for. -/
theorem hits_step (h : Named own call) (hmove : Moves rosu c call c' call') :
    ¬ Answered own call ∧ Answered own call' ∧ c'.hits = c.hits + 1 ∨
      (Answered own call' ↔ Answered own call) ∧ c'.hits = c.hits := by
  cases hmove with
  | @found id bytes map hc =>
    have hown : own = some id := h
    left
    rw [BeatmapCache.get_of_some hc]
    exact ⟨by simp [Answered], by simp [Answered, hown], rfl⟩
  | missed hc =>
    right
    rw [BeatmapCache.get_of_none hc]
    exact ⟨by simp [Answered], rfl⟩
  | unparsable hparse => exact Or.inr ⟨by simp [Answered], rfl⟩
  | parsed hparse => exact Or.inr ⟨by simp [Answered], rfl⟩
  | inserted => exact Or.inr ⟨by simp [Answered], rfl⟩
  | @reread id map hc =>
    have hown : own = some id := h
    left
    rw [BeatmapCache.get_of_some hc]
    exact ⟨by simp [Answered], by simp [Answered, hown], rfl⟩
  | evicted hc =>
    right
    rw [BeatmapCache.get_of_none hc]
    exact ⟨by simp [Answered], rfl⟩
  | uncached =>
    have hown : own = none := h
    exact Or.inr ⟨by simp [Answered, hown], rfl⟩

end

theorem named_run {requests : ι → Files × Option BeatmapSource} {c : BeatmapCache Map}
    {s : Sys (BeatmapCache Map) (Call Map) ι} (h : Run (callStep rosu) (callsOn c requests) s)
    (i : ι) : Named (requestId (requests i)) (s.threads i) := by
  have hA : Threads.Asserted (fun _ : BeatmapCache Map => True)
      (fun i _ call => Named (requestId (requests i)) call) s := by
    refine h.assertions ?_ ?_ ⟨trivial, fun j => named_start (requests j).1 (requests j).2⟩
    · intro s i c' call' _ hA hstep
      exact ⟨trivial, named_step (hA.2 i) (callStep_moves hstep)⟩
    · intro s i j c' call' _ _ hA _
      exact hA.2 j
  exact hA.2 i

/-- No call is answered before its first turn. -/
theorem not_answered_start (own : Option UInt32) (source : Option BeatmapSource) :
    ¬ Answered own (.ofRequest fs source : Call Map) := by
  unfold Call.ofRequest
  cases requestBytes fs source with
  | error err => simp [Answered]
  | ok bytes =>
    show ¬ Answered own (Call.ofBytes bytes)
    unfold Call.ofBytes
    cases parseBeatmapId bytes <;> simp [Answered]

/-- Counting one at a time is adding, in machine words too. -/
theorem iterate_add_one (n : Nat) (hits : UInt64) :
    (· + 1)^[n] hits = hits + UInt64.ofNat n := by
  induction n with
  | zero => simp
  | succ n ih =>
    rw [Function.iterate_succ_apply', ih, UInt64.ofNat_add, UInt64.add_assoc]
    rfl

/-- **The count of hits** in any state reached: one for each call answered by then.  By
    `Threads.RunWhere.counted`, which counts arrivals where each arrival adds one. -/
theorem hits_of_run {requests : ι → Files × Option BeatmapSource} {c : BeatmapCache Map}
    {s : Sys (BeatmapCache Map) (Call Map) ι} (hrun : Run (callStep rosu) (callsOn c requests) s) :
    ∃ answered : Finset ι,
      (∀ i, i ∈ answered ↔ Answered (requestId (requests i)) (s.threads i)) ∧
      s.shared.hits = c.hits + UInt64.ofNat answered.card := by
  obtain ⟨answered, hanswered, hcount⟩ := hrun.counted BeatmapCache.hits (· + 1)
    (fun i call => Answered (requestId (requests i)) call)
    (fun s₁ i c t hrun₁ hstep => hits_step (named_run rosu hrun₁ i) (callStep_moves hstep))
    fun i => not_answered_start (requests i).1 _ (requests i).2
  exact ⟨answered, hanswered, by rw [hcount, iterate_add_one]; rfl⟩

/-- **What the hits count.**  In any interleaving, with any capacity, the hits counted are the
    calls answered with a beatmap for a text with an id. -/
theorem hits_count_answers (c : BeatmapCache Map) (requests : ι → Files × Option BeatmapSource)
    (schedule : List ι) :
    ∃ answered : Finset ι,
      (∀ i, i ∈ answered ↔ Answered (requestId (requests i))
        ((Threads.exec (callStep rosu) schedule (callsOn c requests)).threads i)) ∧
      (Threads.exec (callStep rosu) schedule (callsOn c requests)).shared.hits =
        c.hits + UInt64.ofNat answered.card :=
  hits_of_run rosu (Threads.run_exec schedule _)

/-! ## Contents -/

/-- A call that has used its id: it has inserted, or has been answered. -/
def HasUsed : Call Map → Prop
  | .reread _ => True
  | .done (.ok _) => True
  | _ => False

/-- The ids used so far, in order: the cache has been used like this, only ids that parse have
    been used, and those of the calls that have their beatmap are among them. -/
structure Trace (requests : ι → Files × Option BeatmapSource) (c : BeatmapCache Map)
    (s : Sys (BeatmapCache Map) (Call Map) ι) (trace : List UInt32) : Prop where
  cap : s.shared.inner.cap = c.inner.cap
  ids : s.shared.ids = (uses trace c.ids).take c.inner.cap
  parsed : ∀ id ∈ trace, id ∈ ParsedIds rosu requests
  used : ∀ i id, HasUsed (s.threads i) → requestId (requests i) = some id → id ∈ trace

omit [DecidableEq ι] in
/-- At the start nothing has been used. -/
theorem trace_start (requests : ι → Files × Option BeatmapSource) (c : BeatmapCache Map) :
    Trace rosu requests c (callsOn c requests) [] := by
  refine ⟨rfl, (List.take_of_length_le c.length_ids_le).symm, by simp, ?_⟩
  intro i id hused hid
  exfalso
  revert hused
  show ¬ HasUsed (Call.ofRequest (requests i).1 (requests i).2)
  unfold Call.ofRequest
  unfold requestId at hid
  cases hb : requestBytes (requests i).1 (requests i).2 with
  | error err => simp [HasUsed]
  | ok bytes =>
    rw [hb] at hid
    have hbytes : parseBeatmapId bytes = some id := hid
    show ¬ HasUsed (Call.ofBytes bytes)
    rw [Call.ofBytes, hbytes]
    simp [HasUsed]

section

variable {rosu} {sent : ByteArray → Prop} {c c' : BeatmapCache Map} {call call' : Call Map}

/-- What a call uses is an id that its own bytes have, and they parse. -/
theorem usedAt_parsed {own : Except Error ByteArray} (hids : IdsDecide rosu sent)
    (hown : ∀ bytes, own = .ok bytes → sent bytes) (hcoh : BeatmapCache.Coherent rosu sent c)
    (h : OnTrack rosu own call) {k : UInt32} (hk : k ∈ usedAt c call) :
    ∃ bytes map, own = .ok bytes ∧ parseBeatmapId bytes = some k ∧
      rosu.fromBytes bytes = .ok map := by
  cases call with
  | lookup id bytes =>
    -- a hit: the resident map is the parse of other bytes with this id, which parse alike
    by_cases hmem : id ∈ c.ids
    · obtain rfl : k = id := by simpa [usedAt, hmem] using hk
      obtain ⟨map, hc⟩ := Option.isSome_iff_exists.mp (BeatmapCache.mem_ids.mp hmem)
      have hparse := resident_parses rosu hids hcoh (hown bytes h.1) h.2 hc
      exact ⟨bytes, map, h.1, h.2, (parseBytes_eq_ok rosu).mp hparse⟩
    · simp [usedAt, hmem] at hk
  | insert id map =>
    obtain rfl : k = id := by simpa [usedAt] using hk
    obtain ⟨bytes, hb, hid, hparse⟩ := h
    exact ⟨bytes, map, hb, hid, (parseBytes_eq_ok rosu).mp hparse⟩
  | reread id =>
    obtain ⟨bytes, map, hb, hid, hparse⟩ := h
    obtain rfl : k = id := by
      by_cases hmem : id ∈ c.ids
      · simpa [usedAt, hmem] using hk
      · simp [usedAt, hmem] at hk
    exact ⟨bytes, map, hb, hid, (parseBytes_eq_ok rosu).mp hparse⟩
  | parse id bytes => simp [usedAt] at hk
  | uncached bytes => simp [usedAt] at hk
  | done result => simp [usedAt] at hk

/-- A call that has used its id after a turn had used it before or uses it in this turn. -/
theorem hasUsed_step {own : Option UInt32} (h : Named own call) (hmove : Moves rosu c call c' call')
    (hused : HasUsed call') {id : UInt32} (hid : own = some id) :
    HasUsed call ∨ id ∈ usedAt c call := by
  cases hmove with
  | @found id' bytes map hc =>
    have hown : own = some id' := h
    obtain rfl : id' = id := Option.some.inj (hown.symm.trans hid)
    have hmem : id' ∈ c.ids := BeatmapCache.mem_ids.mpr (by rw [hc]; rfl)
    exact Or.inr (by simp [usedAt, hmem])
  | missed hc => exact hused.elim
  | unparsable hparse => exact hused.elim
  | parsed hparse => exact hused.elim
  | @inserted id' map =>
    have hown : own = some id' := h
    obtain rfl : id' = id := Option.some.inj (hown.symm.trans hid)
    exact Or.inr (by simp [usedAt])
  | reread hc => exact Or.inl trivial
  | evicted hc => exact hused.elim
  | uncached =>
    have hown : own = none := h
    rw [hown] at hid
    cases hid

end

/-- Every run has its trace. -/
theorem trace_run {sent : ByteArray → Prop} {requests : ι → Files × Option BeatmapSource}
    {c : BeatmapCache Map} (hids : IdsDecide rosu sent)
    (hcarried : ∀ bytes, CarriedBy requests bytes → sent bytes)
    (hcoh : BeatmapCache.Coherent rosu sent c) {s : Sys (BeatmapCache Map) (Call Map) ι}
    (h : Run (callStep rosu) (callsOn c requests) s) : ∃ trace, Trace rosu requests c s trace := by
  induction h with
  | refl => exact ⟨[], trace_start rosu requests c⟩
  | @tail s₁ s₂ hrun hlast ih =>
    obtain ⟨trace, htrace⟩ := ih
    obtain ⟨i, -, c', call', hi, rfl⟩ := hlast
    have hmove := callStep_moves hi
    obtain ⟨hcap, hused⟩ := moves_ids hmove
    have htrack := onTrack_run rosu hids hcarried hcoh hrun
    refine ⟨trace ++ usedAt s₁.shared (s₁.threads i), hcap.trans htrace.cap, ?_, ?_, ?_⟩
    · -- the cuts in between do not show
      rw [hused, htrace.cap, htrace.ids, Recency.take_uses_take, uses, uses, uses,
        List.foldl_append]
    · -- the new uses are of ids that parse
      intro id hid
      rcases List.mem_append.mp hid with hold | hnew
      · exact htrace.parsed id hold
      · obtain ⟨bytes, map, hb, hbid, hparse⟩ := usedAt_parsed hids
          (fun bytes hb => hcarried bytes ⟨i, hb⟩) htrack.1 (htrack.2 i) hnew
        exact ⟨i, bytes, map, hb, hbid, hparse⟩
    · -- and they are the moving call's own
      intro j id hj hid
      refine List.mem_append.mpr ?_
      by_cases hij : j = i
      · subst hij
        have hnow : HasUsed call' := by simpa using hj
        rcases hasUsed_step (named_run rosu hrun j) hmove hnow hid with hbefore | hnew
        · exact Or.inl (htrace.used j id hbefore hid)
        · exact Or.inr hnew
      · exact Or.inl (htrace.used j id (by simpa [hij] using hj) hid)

/-- Once all calls have ended, with room, the ids used are the ids that parse.  One way is part of
    the trace; the other way a call with such an id has been answered, so it has used it. -/
theorem mem_trace_iff {sent : ByteArray → Prop} {requests : ι → Files × Option BeatmapSource}
    {c : BeatmapCache Map} (hids : IdsDecide rosu sent)
    (hcarried : ∀ bytes, CarriedBy requests bytes → sent bytes)
    (hcoh : BeatmapCache.Coherent rosu sent c)
    (hroom : (UsableIds rosu c requests).encard ≤ c.inner.cap)
    {s : Sys (BeatmapCache Map) (Call Map) ι} (hrun : Run (callStep rosu) (callsOn c requests) s)
    (hdone : ∀ i, ∃ result, s.threads i = .done result) {trace : List UInt32}
    (h : Trace rosu requests c s trace) (id : UInt32) :
    id ∈ trace ↔ id ∈ ParsedIds rosu requests := by
  refine ⟨h.parsed id, ?_⟩
  rintro ⟨i, bytes, map, hb, hid, hparse⟩
  obtain ⟨result, hi⟩ := hdone i
  have hown := done_of_keepsPending rosu hids hcarried hcoh (runWhere_of_room rosu hroom hrun) hi
  -- the call for this id has ended with its beatmap, since no pending entry is evicted
  have hanswer : result = .ok map := by
    rw [hown, hb]
    exact (parseBytes_eq_ok rosu).mpr hparse
  refine h.used i id ?_ (by rw [requestId, hb]; exact hid)
  rw [hi, hanswer]
  exact trivial

/-- Two coherent caches with the same ids have the same contents: under each id the parse of some
    bytes with that id, and all of those parse alike. -/
theorem lookup_eq_of_ids {sent : ByteArray → Prop} {c c' : BeatmapCache Map}
    (hids : IdsDecide rosu sent) (hcoh : BeatmapCache.Coherent rosu sent c)
    (hcoh' : BeatmapCache.Coherent rosu sent c') (hsame : ∀ id, id ∈ c.ids ↔ id ∈ c'.ids)
    (id : UInt32) : c.lookup id = c'.lookup id := by
  by_cases hmem : id ∈ c.ids
  · -- both hold a parse of bytes with this id
    obtain ⟨map, hc⟩ := Option.isSome_iff_exists.mp (BeatmapCache.mem_ids.mp hmem)
    obtain ⟨map', hc'⟩ := Option.isSome_iff_exists.mp (BeatmapCache.mem_ids.mp ((hsame id).mp hmem))
    obtain ⟨bytes, hsent, hid, hparse⟩ := hcoh id map hc
    obtain ⟨bytes', hsent', hid', hparse'⟩ := hcoh' id map' hc'
    rw [hids bytes bytes' id hsent hsent' hid hid', hparse'] at hparse
    rw [hc, hc', Except.ok.inj hparse]
  · -- neither holds anything
    rw [BeatmapCache.lookup_of_not_mem hmem,
      BeatmapCache.lookup_of_not_mem fun h => hmem ((hsame id).mpr h)]

/-- The size shown is the number of ids. -/
theorem size_eq_length_ids (c : BeatmapCache Map) : c.stats.size = c.ids.length := by
  simp [BeatmapCache.stats, LruMap.len, BeatmapCache.ids, LruMap.keys]

/-- **Answers, contents and hits do not depend on the schedule.**  With room for the ids in use,
    and where bytes of equal ids parse alike, any two schedules that bring all calls to their end
    leave the calls with the same answers, and the cache with the same beatmaps and the same
    number of hits.  What the schedule does decide is the order in which the ids were used, and
    with it what later calls evict, and how many misses were counted. -/
theorem complete_runs_agree {sent : ByteArray → Prop} {requests : ι → Files × Option BeatmapSource}
    {c : BeatmapCache Map} (hids : IdsDecide rosu sent) (hreach : Reachable rosu sent c)
    (hcarried : ∀ bytes, CarriedBy requests bytes → sent bytes)
    (hroom : (UsableIds rosu c requests).encard ≤ c.inner.cap)
    {s s' : Sys (BeatmapCache Map) (Call Map) ι}
    (hrun : Run (callStep rosu) (callsOn c requests) s)
    (hrun' : Run (callStep rosu) (callsOn c requests) s')
    (hdone : ∀ i, ∃ result, s.threads i = .done result)
    (hdone' : ∀ i, ∃ result, s'.threads i = .done result) :
    s.threads = s'.threads ∧ (∀ id, s.shared.lookup id = s'.shared.lookup id) ∧
      s.shared.stats.size = s'.shared.stats.size ∧ s.shared.hits = s'.shared.hits := by
  have hcoh := hreach.coherent hids
  have hthreads : s.threads = s'.threads := by
    funext i
    obtain ⟨result, hi⟩ := hdone i
    obtain ⟨result', hi'⟩ := hdone' i
    rw [hi, hi', done_of_keepsPending rosu hids hcarried hcoh (runWhere_of_room rosu hroom hrun) hi,
      done_of_keepsPending rosu hids hcarried hcoh (runWhere_of_room rosu hroom hrun') hi']
  obtain ⟨trace, htrace⟩ := trace_run rosu hids hcarried hcoh hrun
  obtain ⟨trace', htrace'⟩ := trace_run rosu hids hcarried hcoh hrun'
  have hmem := mem_trace_iff rosu hids hcarried hcoh hroom hrun hdone htrace
  have hmem' := mem_trace_iff rosu hids hcarried hcoh hroom hrun' hdone' htrace'
  have hfits : trace.dedup.length ≤ c.inner.cap := by
    have hle : (trace.dedup.length : ℕ∞) ≤ (UsableIds rosu c requests).encard :=
      Recency.length_le_encard trace.nodup_dedup
        fun id hid => Or.inl (htrace.parsed id (List.mem_dedup.mp hid))
    exact Nat.cast_le.mp (hle.trans hroom)
  -- both have used the same ids, so with room they hold the same ones
  have hperm : s.shared.ids.Perm s'.shared.ids := by
    rw [htrace.ids, htrace'.ids]
    exact Recency.perm_take_uses c.nodup_ids (fun id => (hmem id).trans (hmem' id).symm) hfits
  refine ⟨hthreads, ?_, ?_, ?_⟩
  · -- the contents
    exact lookup_eq_of_ids rosu hids (onTrack_run rosu hids hcarried hcoh hrun).1
      (onTrack_run rosu hids hcarried hcoh hrun').1 fun id => hperm.mem_iff
  · -- their number
    rw [size_eq_length_ids, size_eq_length_ids, hperm.length_eq]
  · -- the hits: the same calls have been answered
    obtain ⟨answered, hanswered, hhits⟩ := hits_of_run rosu hrun
    obtain ⟨answered', hanswered', hhits'⟩ := hits_of_run rosu hrun'
    have hsame : answered = answered' := by
      ext i
      rw [hanswered, hanswered', hthreads]
    rw [hhits, hhits', hsame]

/-- Two schedules for the two songs: one after the other, and in turn. -/
def oneByOne : List Bool := [false, false, false, false, true, true, true, true]

/-- In turn, the second call first. -/
def alternating : List Bool := [true, false, true, false, true, false, true, false]

/-- The theorem at these, on a cache with room for two. -/
theorem complete_runs_agree_twoSongs :
    let s := Threads.exec (callStep RosuPp.sample) oneByOne (callsOn (.new 2) twoSongs)
    let s' := Threads.exec (callStep RosuPp.sample) alternating (callsOn (.new 2) twoSongs)
    s.threads = s'.threads ∧ (∀ id, s.shared.lookup id = s'.shared.lookup id) ∧
      s.shared.stats.size = s'.shared.stats.size ∧ s.shared.hits = s'.shared.hits := by
  intro s s'
  have hrun : Run (callStep RosuPp.sample) (callsOn (.new 2) twoSongs) s := Threads.run_exec ..
  have hrun' : Run (callStep RosuPp.sample) (callsOn (.new 2) twoSongs) s' := Threads.run_exec ..
  have hends : ∀ schedule : List Bool, (∀ b, 4 ≤ schedule.count b) → ∀ b, ∃ result,
      (Threads.exec (callStep RosuPp.sample) schedule (callsOn (.new 2) twoSongs)).threads b
        = .done result := by
    intro schedule hall b
    have hleft := turns_exec_le RosuPp.sample (.new 2) twoSongs schedule b
    have hb := hall b
    exact done_of_turns_zero (by omega)
  have hcarried : ∀ bytes, CarriedBy twoSongs bytes →
      bytes = songA.toUTF8 ∨ bytes = songC.toUTF8 := by
    rintro bytes ⟨b, hb⟩
    cases b with
    | false => exact Or.inl (Except.ok.inj hb).symm
    | true => exact Or.inr (Except.ok.inj hb).symm
  have hroom : (UsableIds RosuPp.sample (.new 2) twoSongs).encard ≤ (2 : ℕ) := by
    refine (encard_usableIds_le RosuPp.sample _ _).trans ?_
    simp
  exact complete_runs_agree RosuPp.sample idsDecide_songs (reachable_new _ 2) hcarried hroom hrun
    hrun' (hends oneByOne (by decide)) (hends alternating (by decide))

end PpService
