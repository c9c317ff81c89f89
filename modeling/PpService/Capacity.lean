/-
  ROOM FOR EVERY ID: when concurrent calls cannot evict each other's entries.

  `parse_beatmap_cached` reads its entry back after inserting it, and fails if it has gone in
  between.  An entry leaves only when the capacity's worth of other ids have been used since it
  was last used; so what matters is how many ids the calls can use at all.  A call uses an id by
  inserting a parsed beatmap under it or by finding it cached, so these are the ids of the bytes
  that parse and those that are cached to begin with (`UsableIds`).

  1. **Room.**  With room for all of them no pending entry is ever evicted, in any interleaving:
     the assertion of a call about to read again is that only usable ids have been used since
     its insertion (`UsedAfter`).
  2. **No room.**  On an empty cache one id too many is enough: let the calls insert one after
     the other, then the entry of the first has gone (`fill`).  So the spurious error can occur
     if and only if more ids parse than the cache has room for.
  3. **Turns.**  A call has its answer after at most four turns of its own, whatever the others
     do between them.

  The crux of (1) is the order of use.  Between a call's insertion and its re-read every turn of
  another call uses usable ids only, so the ids before the call's own in that order are usable
  and distinct; with room for all of them the cut comes behind the call's id, and the victim is
  another one (`usedAfter_step`, `keepsPending_of_room`).  The crux of (2) is a run: calls that
  come to their insertions one after the other use up the room while the first of them waits
  (`Ready.fill`).

  A batch among nobody else has at most as many ids in use as it has requests, so a cache with
  room for the batch has room for its ids (`batch_with_room`).
-/
import PpService.Batch
import PpService.WorkingSet

namespace PpService

open Proto (BeatmapSource PerformanceRequest PerformanceResponse BatchRequest BatchResponse)
open Recency (UsedAfter uses)
open Threads (Sys Run RunWhere StepAt)

variable {Map Mods GD GP : Type} (rosu : RosuPp Map Mods GD GP) (fs : Files)
variable {ι : Type} [DecidableEq ι]

/-! ## The ids that calls can use -/

/-- The id of the bytes of a request. -/
def requestId (r : Files × Option BeatmapSource) : Option UInt32 :=
  (requestBytes r.1 r.2).toOption.bind parseBeatmapId

/-- The ids whose bytes some request carries and parses.  Requests for one id count once, so this is
    what the cache needs room for when it is empty to begin with. -/
def ParsedIds (requests : ι → Files × Option BeatmapSource) : Set UInt32 :=
  {id | ∃ i bytes map, requestBytes (requests i).1 (requests i).2 = .ok bytes ∧
    parseBeatmapId bytes = some id ∧ rosu.fromBytes bytes = .ok map}

/-- The ids that the requests can come to use in the cache `c`: those of bytes that parse, and
    those that are cached already, which are used without a parse. -/
def UsableIds (c : BeatmapCache Map) (requests : ι → Files × Option BeatmapSource) : Set UInt32 :=
  ParsedIds rosu requests ∪ {id | id ∈ c.ids ∧ ∃ i, requestId (requests i) = some id}

omit [DecidableEq ι] in
/-- An empty cache adds none. -/
theorem usableIds_new (size : Nat) (requests : ι → Files × Option BeatmapSource) :
    UsableIds rosu (.new size) requests = ParsedIds rosu requests := by
  have hnone : {id | id ∈ (BeatmapCache.new size : BeatmapCache Map).ids ∧
      ∃ i, requestId (requests i) = some id} = ∅ := by
    ext id
    simp [BeatmapCache.ids, BeatmapCache.new]
  rw [UsableIds, hnone, Set.union_empty]

/-! ## Room -/

/-- The ids a call uses at its next turn. -/
def usedAt (c : BeatmapCache Map) : Call Map → List UInt32
  | .lookup id _ => if id ∈ c.ids then [id] else []
  | .insert id _ => [id]
  | .reread id => if id ∈ c.ids then [id] else []
  | _ => []

variable {rosu} in
/-- A turn is these uses, cut at the capacity. -/
theorem moves_ids {c c' : BeatmapCache Map} {call call' : Call Map}
    (h : Moves rosu c call c' call') :
    c'.inner.cap = c.inner.cap ∧ c'.ids = (uses (usedAt c call) c.ids).take c.inner.cap := by
  have hsame : c.ids = (uses [] c.ids).take c.inner.cap :=
    (List.take_of_length_le c.length_ids_le).symm
  have hfound : ∀ id map, c.lookup id = some map →
      (c.get id).2.ids = (uses (if id ∈ c.ids then [id] else []) c.ids).take c.inner.cap := by
    intro id map hc
    have hmem : id ∈ c.ids := BeatmapCache.mem_ids.mpr (by rw [hc]; rfl)
    rw [BeatmapCache.ids_get_of_mem hmem, if_pos hmem]
    exact (BeatmapCache.take_touch_ids hmem).symm
  have hmissed : ∀ id, c.lookup id = none →
      (c.get id).2.ids = (uses (if id ∈ c.ids then [id] else []) c.ids).take c.inner.cap := by
    intro id hc
    have hmem : id ∉ c.ids := by rw [BeatmapCache.mem_ids, hc]; simp
    rw [BeatmapCache.ids_get_of_not_mem hmem, if_neg hmem]
    exact hsame
  cases h with
  | @found id bytes map hc => exact ⟨BeatmapCache.cap_get c id, hfound id map hc⟩
  | @missed id bytes hc => exact ⟨BeatmapCache.cap_get c id, hmissed id hc⟩
  | unparsable hparse => exact ⟨rfl, hsame⟩
  | parsed hparse => exact ⟨rfl, hsame⟩
  | @inserted id map =>
    exact ⟨BeatmapCache.cap_insert c id map, BeatmapCache.ids_insert c id map⟩
  | @reread id map hc => exact ⟨BeatmapCache.cap_get c id, hfound id map hc⟩
  | @evicted id hc => exact ⟨BeatmapCache.cap_get c id, hmissed id hc⟩
  | uncached => exact ⟨rfl, hsame⟩

/-- The invariant of the cache: its capacity, and that a requested id it holds is usable.  Ids that
    nobody asks for may be there too; they can only be evicted. -/
def Holds (cap : Nat) (requested T : Set UInt32) (c : BeatmapCache Map) : Prop :=
  c.inner.cap = cap ∧ ∀ id ∈ c.ids, id ∈ requested → id ∈ T

/-- The assertion of a call with the given bytes: what it uses is usable, and since its insertion
    nothing else has been used. -/
def Keeps (own : Except Error ByteArray) (T : Set UInt32) (c : BeatmapCache Map) :
    Call Map → Prop
  | .lookup id bytes => own = .ok bytes ∧ parseBeatmapId bytes = some id
  | .parse id bytes => own = .ok bytes ∧ parseBeatmapId bytes = some id
  | .insert id _ => id ∈ T
  | .reread id => id ∈ T ∧ UsedAfter T id c.ids
  | _ => True

/-- A call has used nothing yet. -/
theorem keeps_start (T : Set UInt32) (c : BeatmapCache Map) (source : Option BeatmapSource) :
    Keeps (requestBytes fs source) T c (.ofRequest fs source) := by
  unfold Call.ofRequest
  cases hb : requestBytes fs source with
  | error err => exact trivial
  | ok bytes =>
    show Keeps (.ok bytes) T c (Call.ofBytes bytes)
    unfold Call.ofBytes
    cases hid : parseBeatmapId bytes with
    | none => exact trivial
    | some id => exact ⟨rfl, hid⟩

section

variable {rosu} {requested T : Set UInt32} {cap : Nat} {own : Except Error ByteArray}
  {c c' : BeatmapCache Map} {call call' : Call Map}

/-- What a turn uses is usable. -/
theorem usedAt_usable (hc : Holds cap requested T c) (h : Keeps own T c call)
    (hown : ∀ bytes id, own = .ok bytes → parseBeatmapId bytes = some id → id ∈ requested) :
    ∀ k ∈ usedAt c call, k ∈ T := by
  intro k hk
  cases call with
  | lookup id bytes =>
    -- a hit: the id was cached, and the call's bytes have it
    by_cases hmem : id ∈ c.ids
    · obtain rfl : k = id := by simpa [usedAt, hmem] using hk
      exact hc.2 k hmem (hown bytes k h.1 h.2)
    · simp [usedAt, hmem] at hk
  | insert id map =>
    obtain rfl : k = id := by simpa [usedAt] using hk
    exact h
  | reread id =>
    obtain rfl : k = id := by simpa [usedAt, h.2.mem] using hk
    exact h.1
  | parse id bytes => simp [usedAt] at hk
  | uncached bytes => simp [usedAt] at hk
  | done result => simp [usedAt] at hk

/-- What a turn does to the order of use keeps the invariant. -/
theorem holds_step (hc : Holds cap requested T c) (h : Keeps own T c call)
    (hown : ∀ bytes id, own = .ok bytes → parseBeatmapId bytes = some id → id ∈ requested)
    (hmove : Moves rosu c call c' call') : Holds cap requested T c' := by
  obtain ⟨hcap, hids⟩ := moves_ids hmove
  refine ⟨hcap.trans hc.1, ?_⟩
  intro id hid hreq
  rw [hids] at hid
  rcases Recency.mem_uses.mp (List.mem_of_mem_take hid) with hnew | hold
  · exact usedAt_usable hc h hown id hnew
  · exact hc.2 id hold hreq

/-- While usable ids are used, no usable entry is lost: the ids used since stand in front of it,
    they are usable and distinct, and there is room for all of them. -/
theorem usedAfter_step (hroom : T.encard ≤ cap) (hc : Holds cap requested T c)
    (h : Keeps own T c call)
    (hown : ∀ bytes id, own = .ok bytes → parseBeatmapId bytes = some id → id ∈ requested)
    (hmove : Moves rosu c call c' call') {id : UInt32} (hid : id ∈ T)
    (hused : UsedAfter T id c.ids) : UsedAfter T id c'.ids := by
  obtain ⟨-, hids⟩ := moves_ids hmove
  rw [hids, hc.1]
  exact (hused.uses (usedAt_usable hc h hown)).take (Recency.nodup_uses _ c.nodup_ids) hid hroom

/-- A call's own turn. -/
theorem keeps_own (hroom : T.encard ≤ cap) (hc : Holds cap requested T c) (h : Keeps own T c call)
    (hparsed : ∀ bytes id map, own = .ok bytes → parseBeatmapId bytes = some id →
      rosu.fromBytes bytes = .ok map → id ∈ T)
    (hmove : Moves rosu c call c' call') : Keeps own T c' call' := by
  cases hmove with
  | found hlookup => exact trivial
  | missed hlookup => exact h
  | unparsable hparse => exact trivial
  | @parsed id bytes map hparse =>
    -- the call comes to an id to insert, and it is one of those that parse
    exact hparsed bytes id map h.1 h.2 ((parseBytes_eq_ok rosu).mp hparse)
  | @inserted id map =>
    refine ⟨h, ?_⟩
    rw [BeatmapCache.ids_insert, hc.1]
    exact (UsedAfter.self T id c.ids).take (Recency.nodup_touch c.nodup_ids) h hroom
  | reread hlookup => exact trivial
  | evicted hlookup => exact trivial
  | uncached => exact trivial

end

/-- The invariant and the assertions hold in every reachable state. -/
theorem keeps_run {requests : ι → Files × Option BeatmapSource} {c : BeatmapCache Map}
    (hroom : (UsableIds rosu c requests).encard ≤ c.inner.cap)
    {s : Sys (BeatmapCache Map) (Call Map) ι} (h : Run (callStep rosu) (callsOn c requests) s) :
    Threads.Asserted
      (Holds c.inner.cap {id | ∃ i, requestId (requests i) = some id} (UsableIds rosu c requests))
      (fun i => Keeps (requestBytes (requests i).1 (requests i).2) (UsableIds rosu c requests))
      s := by
  have hrequested : ∀ i bytes id, requestBytes (requests i).1 (requests i).2 = .ok bytes →
      parseBeatmapId bytes = some id → id ∈ {id | ∃ i, requestId (requests i) = some id} := by
    intro i bytes id hb hid
    exact ⟨i, by rw [requestId, hb]; exact hid⟩
  refine h.assertions ?_ ?_ ⟨⟨rfl, ?_⟩, fun j => keeps_start _ _ c _⟩
  · -- the call whose turn it is
    intro s i c' call' _ hA hstep
    have hmove := callStep_moves hstep
    refine ⟨holds_step hA.1 (hA.2 i) (hrequested i) hmove, ?_⟩
    refine keeps_own hroom hA.1 (hA.2 i) ?_ hmove
    intro bytes id map hb hid hparse
    exact Or.inl ⟨i, bytes, map, hb, hid, hparse⟩
  · -- the others: only what a pending call asserts is about the cache
    intro s i j c' call' _ _ hA hstep
    have hmove := callStep_moves hstep
    have hj := hA.2 j
    cases hcall : s.threads j with
    | reread id =>
      rw [hcall] at hj
      exact ⟨hj.1, usedAfter_step hroom hA.1 (hA.2 i) (hrequested i) hmove hj.1 hj.2⟩
    | lookup id bytes => rwa [hcall] at hj
    | parse id bytes => rwa [hcall] at hj
    | insert id map => rwa [hcall] at hj
    | uncached bytes => exact trivial
    | done result => exact trivial
  · -- at the start, what is cached and requested is usable
    intro id hid hreq
    exact Or.inr ⟨hid, hreq⟩

/-- With room for all usable ids, no turn evicts a pending entry.  The entry would be the last one
    of a full cache, so everything cached would be usable, and the id to insert would be one usable
    id too many. -/
theorem keepsPending_of_room {requests : ι → Files × Option BeatmapSource} {c : BeatmapCache Map}
    (hroom : (UsableIds rosu c requests).encard ≤ c.inner.cap)
    {s : Sys (BeatmapCache Map) (Call Map) ι} (h : Run (callStep rosu) (callsOn c requests) s)
    (i : ι) : KeepsPending s i := by
  have hA := keeps_run rosu hroom h
  intro id map id' hi hv j hj
  obtain ⟨hnew, hfull, hlast⟩ := LruMap.victim_eq_some hv
  have hinsert := hA.2 i
  have hpending := hA.2 j
  rw [hi] at hinsert
  rw [hj] at hpending
  have hall := hpending.2.all_of_last s.shared.nodup_ids hpending.1 hlast
  have hlen : ((id :: s.shared.ids).length : ℕ∞) ≤ c.inner.cap := by
    have hnodup : (id :: s.shared.ids).Nodup := List.nodup_cons.mpr ⟨hnew, s.shared.nodup_ids⟩
    refine (Recency.length_le_encard hnodup ?_).trans hroom
    intro x hx
    rcases List.mem_cons.mp hx with rfl | hx
    · exact hinsert
    · exact hall x hx
  have hcap := hA.1.1
  have hlen' : s.shared.ids.length + 1 ≤ c.inner.cap := by simpa using Nat.cast_le.mp hlen
  have hfull' : c.inner.cap ≤ s.shared.ids.length := by rw [← hcap]; exact hfull
  omega

/-- So every run is one of turns that do not. -/
theorem runWhere_of_room {requests : ι → Files × Option BeatmapSource} {c : BeatmapCache Map}
    (hroom : (UsableIds rosu c requests).encard ≤ c.inner.cap)
    {s : Sys (BeatmapCache Map) (Call Map) ι} (h : Run (callStep rosu) (callsOn c requests) s) :
    RunWhere (callStep rosu) KeepsPending (callsOn c requests) s :=
  h.runWhere fun _ hs => keepsPending_of_room rosu hroom hs

/-! ## No room -/

/-- A call whose bytes parse and whose id is not cached comes to its insertion. -/
theorem reaches_insert {s : Sys (BeatmapCache Map) (Call Map) ι} {i : ι}
    {source : Option BeatmapSource} {bytes : ByteArray} {id : UInt32} {map : Map}
    (hstart : s.threads i = .ofRequest fs source) (hb : requestBytes fs source = .ok bytes)
    (hid : parseBeatmapId bytes = some id) (hparse : rosu.fromBytes bytes = .ok map)
    (hnew : id ∉ s.shared.ids) :
    Run (callStep rosu) s
      ⟨(s.shared.get id).2, Function.update s.threads i (.insert id map)⟩ := by
  have hc : s.shared.lookup id = none := BeatmapCache.lookup_of_not_mem hnew
  have hlookup : s.threads i = .lookup id bytes := by
    rw [hstart]
    simp only [Call.ofRequest, hb, Call.ofBytes, hid]
  have hsolo : Threads.Solo (callStep rosu) (s.shared, s.threads i)
      ((s.shared.get id).2, .insert id map) := by
    rw [hlookup]
    refine .head (b := ((s.shared.get id).2, .parse id bytes)) ?_ (.single ?_)
    · -- it misses
      simp only [callStep, BeatmapCache.get_of_none hc]
    · -- and parses
      simp only [callStep, (parseBytes_eq_ok rosu).mpr hparse]
  exact hsolo.runWhere fun _ _ => trivial

/-- The cache after an insertion under a new id, while there is room. -/
theorem ids_insert_new {c : BeatmapCache Map} {id : UInt32} (map : Map) (hnew : id ∉ c.ids)
    (hroom : c.ids.length < c.inner.cap) :
    ((c.get id).2.insert id map).ids = id :: c.ids := by
  rw [BeatmapCache.ids_insert, BeatmapCache.cap_get, BeatmapCache.ids_get_of_not_mem hnew,
    Recency.touch_of_not_mem hnew]
  exact List.take_of_length_le (by simpa using hroom)

/-- The calls that carry these ids have not had a turn, the ids are not cached, and the bytes under
    them parse. -/
structure Ready (requests : ι → Files × Option BeatmapSource) (ids : List UInt32)
    (s : Sys (BeatmapCache Map) (Call Map) ι) : Prop where
  parsed : ∀ id ∈ ids, id ∈ ParsedIds rosu requests
  nodup : ids.Nodup
  start : ∀ i, ∀ id ∈ ids, requestId (requests i) = some id →
    s.threads i = .ofRequest (requests i).1 (requests i).2
  new : ∀ id ∈ ids, id ∉ s.shared.ids

section

variable {rosu} {requests : ι → Files × Option BeatmapSource}
  {s : Sys (BeatmapCache Map) (Call Map) ι} {id : UInt32} {ids : List UInt32}

/-- The call of the first id can come to its insertion. -/
theorem Ready.reaches_insert (h : Ready rosu requests (id :: ids) s) :
    ∃ i map, requestId (requests i) = some id ∧ Run (callStep rosu) s
      ⟨(s.shared.get id).2, Function.update s.threads i (.insert id map)⟩ := by
  obtain ⟨i, bytes, map, hb, hid, hparse⟩ := h.parsed id List.mem_cons_self
  have hi : requestId (requests i) = some id := by rw [requestId, hb]; exact hid
  exact ⟨i, map, hi, PpService.reaches_insert rosu (requests i).1
    (h.start i id List.mem_cons_self hi) hb hid hparse (h.new id List.mem_cons_self)⟩

/-- Where there is room it inserts, and the others are still ready. -/
theorem Ready.inserts (h : Ready rosu requests (id :: ids) s)
    (hroom : s.shared.ids.length < s.shared.inner.cap) :
    ∃ i s', requestId (requests i) = some id ∧ Run (callStep rosu) s s' ∧
      s'.threads i = .reread id ∧ (∀ j, j ≠ i → s'.threads j = s.threads j) ∧
      s'.shared.ids = id :: s.shared.ids ∧ s'.shared.inner.cap = s.shared.inner.cap ∧
      Ready rosu requests ids s' := by
  have hnew : id ∉ s.shared.ids := h.new id List.mem_cons_self
  obtain ⟨hnot, hnodup⟩ := List.nodup_cons.mp h.nodup
  obtain ⟨i, map, hi, hrun⟩ := h.reaches_insert
  have hids := ids_insert_new map hnew hroom
  have hstep : StepAt (callStep rosu) i
      ⟨(s.shared.get id).2, Function.update s.threads i (.insert id map)⟩
      ⟨(s.shared.get id).2.insert id map, Function.update s.threads i (.reread id)⟩ := by
    refine ⟨(s.shared.get id).2.insert id map, .reread id, ?_, by simp⟩
    simp [callStep]
  refine ⟨i, _, hi, hrun.snoc hstep, Function.update_self .., ?_, hids, ?_, ?_⟩
  · -- nobody else has moved
    intro j hj
    exact Function.update_of_ne hj ..
  · -- the capacity is the one there was
    rw [BeatmapCache.cap_insert, BeatmapCache.cap_get]
  · -- the calls of the other ids have not moved, and their ids are still new
    refine ⟨fun id' hid' => h.parsed id' (List.mem_cons_of_mem _ hid'), hnodup, ?_, ?_⟩
    · intro j id' hid' hj
      have hne : j ≠ i := by
        rintro rfl
        rw [hi, Option.some.injEq] at hj
        exact hnot (hj ▸ hid')
      show Function.update s.threads i _ j = _
      rw [Function.update_of_ne hne]
      exact h.start j id' (List.mem_cons_of_mem _ hid') hj
    · intro id' hid' hmem
      rw [hids] at hmem
      rcases List.mem_cons.mp hmem with rfl | hold
      · exact hnot hid'
      · exact h.new id' (List.mem_cons_of_mem _ hid') hold

/-- Calls that come to their insertions one after the other fill the cache in this order.  By
    induction on the ids, each inserted into the room that the ones before it have left. -/
theorem Ready.fill {last : List UInt32} (h : Ready rosu requests (ids ++ last) s)
    (hroom : ids.length + s.shared.ids.length ≤ s.shared.inner.cap) :
    ∃ s', Run (callStep rosu) s s' ∧ s'.shared.ids = ids.reverse ++ s.shared.ids ∧
      s'.shared.inner.cap = s.shared.inner.cap ∧ Ready rosu requests last s' ∧
      ∀ j, (∀ id ∈ ids, requestId (requests j) ≠ some id) → s'.threads j = s.threads j := by
  induction ids generalizing s with
  | nil => exact ⟨s, Relation.ReflTransGen.refl, rfl, rfl, h, fun _ _ => rfl⟩
  | cons id ids ih =>
    -- the first id goes in, and the others go on top of it
    rw [List.length_cons] at hroom
    obtain ⟨i, s₁, hi, hrun₁, -, hsame₁, hids₁, hcap₁, hready₁⟩ := Ready.inserts h (by omega)
    have hroom₁ : ids.length + s₁.shared.ids.length ≤ s₁.shared.inner.cap := by
      rw [hids₁, hcap₁, List.length_cons]
      omega
    obtain ⟨s', hrun, hids, hcap, hready, hsame⟩ := ih hready₁ hroom₁
    refine ⟨s', Relation.ReflTransGen.trans hrun₁ hrun, ?_, hcap.trans hcap₁, hready, ?_⟩
    · rw [hids, hids₁]
      simp
    · intro j hj
      have hne : j ≠ i := by
        rintro rfl
        exact hj id List.mem_cons_self hi
      rw [hsame j fun id' hid' => hj id' (List.mem_cons_of_mem _ hid'), hsame₁ j hne]

end

/-- The victim of an insertion into a full cache is its last id. -/
theorem victim_of_full {c : BeatmapCache Map} {id last : UInt32} {ids : List UInt32}
    (hids : c.ids = ids ++ [last]) (hnew : id ∉ c.ids) (hfull : c.inner.cap ≤ c.ids.length) :
    c.victim id = some last := by
  have hnot : ¬ (id ∈ c.inner.items ∨ c.inner.len < c.inner.cap) := by
    rintro (hmem | hlt)
    · exact hnew (AList.mem_keys.mp hmem)
    · exact absurd hfull (by simpa [LruMap.len, BeatmapCache.ids, LruMap.keys] using hlt)
  rw [BeatmapCache.victim, LruMap.victim, if_neg hnot]
  show c.ids.getLast? = some last
  rw [hids]
  simp

/-- More parsed ids than room: some schedule evicts a pending entry.  The first call inserts and
    waits, others fill the cache on top of its entry, and one more call comes to its insertion. -/
theorem evicts_of_no_room {requests : ι → Files × Option BeatmapSource} {size : Nat}
    (hmany : ¬ (ParsedIds rosu requests).encard ≤ (max size 1 : Nat)) :
    ∃ s i, Run (callStep rosu) (callsOn (.new size) requests) s ∧ ¬ KeepsPending s i := by
  have hle : ((max size 1 + 1 : Nat) : ℕ∞) ≤ (ParsedIds rosu requests).encard := by
    rw [Nat.cast_add, Nat.cast_one]
    exact Order.add_one_le_of_lt (not_le.mp hmany)
  obtain ⟨T, hT, hcard⟩ := Set.exists_subset_encard_eq hle
  have hfin : T.Finite := Set.finite_of_encard_eq_coe hcard
  obtain ⟨ids, hnodup, hparsed, hlen⟩ : ∃ ids : List UInt32, ids.Nodup ∧
      (∀ id ∈ ids, id ∈ ParsedIds rosu requests) ∧ ids.length = max size 1 + 1 := by
    refine ⟨hfin.toFinset.toList, Finset.nodup_toList _, ?_, ?_⟩
    · intro id hid
      exact hT (by simpa using hid)
    · rw [Finset.length_toList]
      rw [hfin.encard_eq_coe_toFinset_card] at hcard
      exact Nat.cast_inj.mp hcard
  obtain ⟨first, mid, last, rfl⟩ : ∃ first mid last, ids = first :: (mid ++ [last]) := by
    obtain _ | ⟨first, rest⟩ := ids
    · simp at hlen
    · have hne : rest ≠ [] := by
        rintro rfl
        simp at hlen
      exact ⟨first, rest.dropLast, rest.getLast hne, by rw [List.dropLast_append_getLast]⟩
  have hready : Ready rosu requests (first :: (mid ++ [last])) (callsOn (.new size) requests) :=
    ⟨hparsed, hnodup, fun _ _ _ _ => rfl, fun _ _ => List.not_mem_nil⟩
  have hlen' : mid.length + 1 = max size 1 := by
    rw [List.length_cons, List.length_append, List.length_singleton] at hlen
    omega
  have hcap : (callsOn (.new size : BeatmapCache Map) requests).shared.inner.cap = max size 1 := rfl
  have hempty : (callsOn (.new size : BeatmapCache Map) requests).shared.ids = [] := rfl
  -- the first call inserts, and stays pending while others fill the cache
  obtain ⟨j, s₁, hj, hrun₁, hpending, -, hids₁, hcap₁, hready₁⟩ := hready.inserts (by
    rw [hempty, hcap, List.length_nil]
    omega)
  rw [hempty] at hids₁
  rw [hcap] at hcap₁
  obtain ⟨s₂, hrun₂, hids₂, hcap₂, hready₂, hsame₂⟩ := hready₁.fill (by
    rw [hids₁, hcap₁, List.length_singleton]
    omega)
  rw [hids₁] at hids₂
  obtain ⟨i, map, hi, hrun₃⟩ := hready₂.reaches_insert
  have hnew : last ∉ s₂.shared.ids := hready₂.new last List.mem_cons_self
  have hids₃ : (s₂.shared.get last).2.ids = mid.reverse ++ [first] := by
    rw [BeatmapCache.ids_get_of_not_mem hnew, hids₂]
  have hvictim : (s₂.shared.get last).2.victim last = some first := by
    refine victim_of_full hids₃ ?_ ?_
    · rwa [BeatmapCache.ids_get_of_not_mem hnew]
    · rw [hids₃, BeatmapCache.cap_get, hcap₂, hcap₁, List.length_append, List.length_reverse,
        List.length_singleton]
      omega
  have hfirst : first ∉ mid ++ [last] := (List.nodup_cons.mp hnodup).1
  have hne : j ≠ i := by
    rintro rfl
    rw [hi, Option.some.injEq] at hj
    exact hfirst (by simp [hj])
  have hstill : Function.update s₂.threads i (.insert last map) j = .reread first := by
    rw [Function.update_of_ne hne, hsame₂ j, hpending]
    intro id hid heq
    rw [hj, Option.some.injEq] at heq
    exact hfirst (by simp [heq, hid])
  refine ⟨_, i, (hrun₁.trans hrun₂).trans hrun₃, ?_⟩
  intro hkeeps
  exact hkeeps last map first (Function.update_self ..) hvictim j hstill

/-- **How large the cache must be.**  On an empty cache, no interleaving of the calls answers
    `MissingBeatmap` to a request with a source if and only if the cache has room for all the
    ids whose bytes parse. -/
theorem no_spurious_missing_iff_room (size : Nat) (requests : ι → Files × Option BeatmapSource) :
    (∀ s, Run (callStep rosu) (callsOn (.new size) requests) s → NoSpuriousMissing requests s) ↔
      (ParsedIds rosu requests).encard ≤ (max size 1 : Nat) := by
  constructor
  · -- without room some schedule evicts a pending entry
    intro hnever
    by_contra hmany
    obtain ⟨s, i, hrun, hkeeps⟩ := evicts_of_no_room rosu hmany
    unfold KeepsPending at hkeeps
    push Not at hkeeps
    obtain ⟨id, map, id', hi, hv, j, hj⟩ := hkeeps
    obtain ⟨s', hrun', hdone⟩ := evicts_pending_missing rosu hi hv hj
    have hnone := hnever s' (hrun.trans hrun') j hdone
    have hstart := no_source_done rosu hrun hnone
    rw [hj] at hstart
    cases hstart
  · -- with room no schedule does
    intro hroom s hrun i hdone
    have hroom' : (UsableIds rosu (.new size) requests).encard ≤
        ((.new size : BeatmapCache Map).inner.cap : ℕ) := by
      rw [usableIds_new]
      exact hroom
    exact (findsAgain_run rosu (runWhere_of_room rosu hroom' hrun) i).2 hdone

/-! ## Turns -/

/-- How many turns a call can still take: four with an id, as it looks up, parses, inserts and
    reads again. -/
def Call.turns : Call Map → Nat
  -- look up, parse, insert, read again
  | .lookup _ _ => 4
  | .parse _ _ => 3
  | .insert _ _ => 2
  | .reread _ => 1
  | .uncached _ => 1
  | .done _ => 0

/-- A turn is one of those. -/
theorem callStep_turns {c c' : BeatmapCache Map} {call call' : Call Map}
    (h : callStep rosu c call = some (c', call')) : call'.turns < call.turns := by
  cases callStep_moves h with
  | found hc => simp [Call.turns]
  | missed hc => simp [Call.turns]
  | unparsable hparse => simp [Call.turns]
  | parsed hparse => simp [Call.turns]
  | inserted => simp [Call.turns]
  | reread hc => simp [Call.turns]
  | evicted hc => simp [Call.turns]
  | uncached => simp [Call.turns]

/-- Only an answered call cannot move. -/
theorem turns_of_stuck {c : BeatmapCache Map} {call : Call Map} (h : callStep rosu c call = none) :
    call.turns = 0 := by
  cases call with
  | lookup id bytes =>
    simp only [callStep] at h
    split at h <;> cases h
  | parse id bytes =>
    simp only [callStep] at h
    split at h <;> cases h
  | insert id map => cases h
  | reread id =>
    simp only [callStep] at h
    split at h <;> cases h
  | uncached bytes => cases h
  | done result => rfl

/-- A call without turns to take is answered. -/
theorem done_of_turns_zero {call : Call Map} (h : call.turns = 0) :
    ∃ result, call = .done result := by
  cases call with
  | done result => exact ⟨result, rfl⟩
  | lookup id bytes => cases h
  | parse id bytes => cases h
  | insert id map => cases h
  | reread id => cases h
  | uncached bytes => cases h

/-- A new call has four turns at most. -/
theorem turns_ofRequest_le (source : Option BeatmapSource) :
    (Call.ofRequest fs source : Call Map).turns ≤ 4 := by
  unfold Call.ofRequest
  cases requestBytes fs source with
  | error err => simp [Call.turns]
  | ok bytes =>
    show (Call.ofBytes bytes : Call Map).turns ≤ 4
    unfold Call.ofBytes
    cases parseBeatmapId bytes <;> simp [Call.turns]

/-- **What a schedule leaves**: a call has used up a turn of its own for each one it was given.
    Turns given to a call that has ended are no turns, and leave none. -/
theorem turns_exec_le (c : BeatmapCache Map) (requests : ι → Files × Option BeatmapSource)
    (schedule : List ι) (i : ι) :
    ((Threads.exec (callStep rosu) schedule (callsOn c requests)).threads i).turns ≤
      4 - schedule.count i := by
  have hleft := Threads.exec_variant (callStep rosu) (fun _ _ _ _ => callStep_turns rosu)
    (fun _ _ => turns_of_stuck rosu) schedule (callsOn c requests) i
  have hstart : ((callsOn c requests).threads i).turns ≤ 4 := turns_ofRequest_le _ _
  omega

/-- **No call waits for another.**  A schedule that has given a call four turns has brought it
    to its answer, whatever turns the other calls have had. -/
theorem answered_after_four_turns (c : BeatmapCache Map)
    (requests : ι → Files × Option BeatmapSource) (schedule : List ι) (i : ι)
    (hturns : 4 ≤ schedule.count i) :
    ∃ result, (Threads.exec (callStep rosu) schedule (callsOn c requests)).threads i
      = .done result := by
  have hleft := turns_exec_le rosu c requests schedule i
  exact done_of_turns_zero (by omega)

/-- The theorem at two calls that take turns. -/
theorem answered_after_four_turns_each :
    ∃ result, (Threads.exec (callStep RosuPp.sample)
      [false, true, false, true, false, true, false, true]
      (callsOn (.new 1) twoSongs)).threads false = .done result :=
  answered_after_four_turns RosuPp.sample (.new 1) twoSongs _ false (by decide)

/-- With room for all usable ids, what four turns bring a call to is what its bytes parse to. -/
theorem done_of_four_turns {sent : ByteArray → Prop}
    {requests : ι → Files × Option BeatmapSource} {c : BeatmapCache Map}
    (hids : IdsDecide rosu sent) (hcoh : BeatmapCache.Coherent rosu sent c)
    (hcarried : ∀ bytes, CarriedBy requests bytes → sent bytes)
    (hroom : (UsableIds rosu c requests).encard ≤ c.inner.cap) (schedule : List ι) {i : ι}
    (hturns : 4 ≤ schedule.count i) :
    (Threads.exec (callStep rosu) schedule (callsOn c requests)).threads i =
      .done ((requestBytes (requests i).1 (requests i).2).bind (parseBytes rosu)) := by
  have hleft := turns_exec_le rosu c requests schedule i
  obtain ⟨result, hdone⟩ := done_of_turns_zero (Nat.le_zero.mp (hleft.trans (by omega)))
  have hown := done_of_keepsPending rosu hids hcarried hcoh
    (runWhere_of_room rosu hroom (Threads.run_exec schedule _)) hdone
  rw [hdone, hown]

/-! ## A batch with room -/

omit [DecidableEq ι] in
/-- There are no more usable ids than requests. -/
theorem encard_usableIds_le (c : BeatmapCache Map) (requests : ι → Files × Option BeatmapSource) :
    (UsableIds rosu c requests).encard ≤ ENat.card ι := by
  have hrange : some '' UsableIds rosu c requests ⊆ Set.range fun i => requestId (requests i) := by
    rintro _ ⟨id, ⟨i, bytes, map, hb, hid, _⟩ | ⟨_, i, hi⟩, rfl⟩
    · exact ⟨i, by show requestId _ = _; rw [requestId, hb]; exact hid⟩
    · exact ⟨i, hi⟩
  calc (UsableIds rosu c requests).encard
      = (some '' UsableIds rosu c requests).encard :=
        ((Option.some_injective _).encard_image _).symm
    _ ≤ (Set.range fun i => requestId (requests i)).encard := Set.encard_le_encard hrange
    _ ≤ ENat.card ι := by
      rw [← Set.image_univ, ← Set.encard_univ]
      exact Set.encard_image_le _ _

/-- The answers of a batch whose requests fare as each of them does alone: the refusal of a batch
    that is too large, all the responses in the order of the requests, or one of the errors. -/
inductive AnswersAsAlone (size : Nat) (req : BatchRequest) : Except Error BatchResponse → Prop where
  | tooLarge (hsize : maxBatchSize < req.requests.length) :
    AnswersAsAlone size req (.error (.batchTooLarge req.requests.length maxBatchSize))
  | responses (hsize : req.requests.length ≤ maxBatchSize) (responses : List PerformanceResponse)
    (hall : req.requests.map (alone rosu fs size) = responses.map .ok) :
    AnswersAsAlone size req (.ok { responses })
  | failure (hsize : req.requests.length ≤ maxBatchSize) (item : PerformanceRequest)
    (hitem : item ∈ req.requests) (err : Error) (herr : alone rosu fs size item = .error err) :
    AnswersAsAlone size req (.error err)

/-- Without evictions of pending entries a batch answers as its requests do alone. -/
theorem answersAsAlone_of_keepsPending {sent : ByteArray → Prop} {req : BatchRequest}
    {c : BeatmapCache Map} (hids : IdsDecide rosu sent) (hreach : Reachable rosu sent c)
    (hcarried : ∀ bytes, CarriedBy (batchRequests fs req nobody) bytes → sent bytes) (size : Nat)
    {s : BatchSys Map Empty req}
    (hkept : RunWhere (callStep rosu) KeepsPending (callsOn c (batchRequests fs req nobody)) s)
    {answer : Except Error BatchResponse} (hret : BatchReturns rosu req s answer) :
    AnswersAsAlone rosu fs size req answer := by
  cases hret with
  | tooLarge hlarge => exact .tooLarge hlarge
  | collected hsize responses hall =>
    -- `collect` keeps the order, so the n-th response is the one of the n-th request
    refine .responses hsize _ (List.ext_getElem (by simp) ?_)
    intro n hn hn'
    have hi : n < req.requests.length := by simpa using hn
    have halone := workerResult_alone hids hreach hcarried hkept size (hall ⟨n, hi⟩)
    simpa using halone
  | failed hsize i err hi =>
    exact .failure hsize _ (List.get_mem _ i) err
      (workerResult_alone hids hreach hcarried hkept size hi)

/-- Once every worker has ended, there is an answer. -/
theorem exists_batchReturns {κ : Type} {req : BatchRequest} {s : BatchSys Map κ req}
    (hall : ∀ i, ∃ result, workerResult rosu req s i = some result) :
    ∃ answer, BatchReturns rosu req s answer := by
  by_cases hsize : req.requests.length ≤ maxBatchSize
  · by_cases hfails : ∃ i err, workerResult rosu req s i = some (.error err)
    · -- one of the errors is an answer, whichever it is
      obtain ⟨i, err, hi⟩ := hfails
      exact ⟨_, .failed hsize i err hi⟩
    · have hok : ∀ i, ∃ resp, workerResult rosu req s i = some (.ok resp) := by
        intro i
        obtain ⟨err | resp, hi⟩ := hall i
        · exact absurd ⟨i, err, hi⟩ hfails
        · exact ⟨resp, hi⟩
      choose responses hresponses using hok
      exact ⟨_, .collected hsize responses hresponses⟩
  · -- too many requests: the refusal is the answer
    exact ⟨_, .tooLarge (not_le.mp hsize)⟩

/-- A schedule that gives every worker four turns has brought all of them to their end. -/
theorem exists_workerResult {κ : Type} [DecidableEq κ] (c : BeatmapCache Map) (req : BatchRequest)
    (others : κ → Files × Option BeatmapSource)
    {schedule : List (Fin req.requests.length ⊕ κ)} (i : Fin req.requests.length)
    (hturns : 4 ≤ schedule.countP (· = .inl i)) :
    ∃ result, workerResult rosu req
      (Threads.exec (callStep rosu) schedule (callsOn c (batchRequests fs req others))) i
        = some result := by
  have hleft : _ ≤ 4 - schedule.countP (· = .inl i) :=
    turns_exec_le rosu c (batchRequests fs req others) schedule (.inl i)
  obtain ⟨loaded, hdone⟩ := done_of_turns_zero (Nat.le_zero.mp (hleft.trans (by omega)))
  exact ⟨loaded.bind (finishPerformance rosu (req.requests.get i)), by rw [workerResult, hdone]⟩

/-- **A batch that fits the cache.**  `sent` are the bytes of the batch and of those that filled
    the cache; bytes in it that have the same id parse alike.  Served with nobody else around, on
    a cache with as much room as the batch has requests, a batch answers as its requests do
    alone, whenever it answers; and it has an answer under every schedule that gives each of its
    workers four turns.  Nothing is asked of its size: more than `MAX_BATCH_SIZE` requests are
    answered with `BatchTooLarge`. -/
theorem batch_with_room {sent : ByteArray → Prop} {req : BatchRequest} {c : BeatmapCache Map}
    (hids : IdsDecide rosu sent) (hreach : Reachable rosu sent c)
    (hcarried : ∀ bytes, CarriedBy (batchRequests fs req nobody) bytes → sent bytes)
    (hroom : req.requests.length ≤ c.inner.cap) (size : Nat) :
    (∀ s answer, Run (callStep rosu) (callsOn c (batchRequests fs req nobody)) s →
      BatchReturns rosu req s answer → AnswersAsAlone rosu fs size req answer) ∧
    ∀ schedule : List (Fin req.requests.length ⊕ Empty), (∀ i, 4 ≤ schedule.countP (· = .inl i)) →
      ∃ answer, BatchReturns rosu req
        (Threads.exec (callStep rosu) schedule (callsOn c (batchRequests fs req nobody)))
        answer := by
  have hfits : (UsableIds rosu c (batchRequests fs req nobody)).encard ≤ c.inner.cap := by
    refine (encard_usableIds_le rosu c _).trans ?_
    simpa [ENat.card_eq_coe_fintype_card] using hroom
  constructor
  · -- what it answers: no worker loses its entry
    intro s answer hrun hret
    exact answersAsAlone_of_keepsPending rosu fs hids hreach hcarried size
      (runWhere_of_room rosu hfits hrun) hret
  · -- that it answers: no worker waits for another
    intro schedule hturns
    exact exists_batchReturns rosu fun i =>
      exists_workerResult rosu fs c req nobody i (hturns i)

/-- The theorem at a batch of two songs whose workers take turns: it answers with two
    responses, the ones that the songs get alone. -/
theorem songBatch_with_room :
    ∃ r, BatchReturns RosuPp.sample songBatch (Threads.exec (callStep RosuPp.sample) inTurn
        (callsOn (.new 2) (batchRequests noFiles songBatch nobody))) (.ok r) ∧
      (∃ answer, BatchReturns RosuPp.sample songBatch (Threads.exec (callStep RosuPp.sample) inTurn
        (callsOn (.new 2) (batchRequests noFiles songBatch nobody))) answer) ∧
      r.responses.length = 2 ∧ AnswersAsAlone RosuPp.sample noFiles 1 songBatch (.ok r) := by
  obtain ⟨r, hlength, hret⟩ := songBatch_returns
  obtain ⟨hanswers, hends⟩ := batch_with_room RosuPp.sample noFiles idsDecide_songs
    (reachable_new _ 2) (fun _ hb => carried_songBatch hb) (by decide) 1
  exact ⟨r, hret, hends inTurn (by decide), hlength, hanswers _ _ (Threads.run_exec _ _) hret⟩

end PpService
