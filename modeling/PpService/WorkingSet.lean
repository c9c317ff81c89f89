/-
  WHAT IS CACHED after a run of requests, whatever the run.

  1. **Contents.**  A request that is answered with a beatmap uses its id, any other leaves the
     order of use alone (`ids_served`).  So the ids cached after a run are the distinct ids
     answered, the latest first, up to the capacity (`serveAll_ids`).

  2. **Residency.**  A request finds its beatmap cached if and only if its id has been answered
     before and fewer ids than the capacity have been answered since (`servedFromCache_iff`).

  3. **Capacity.**  Two caches that serve the same requests stay `Within` each other: whatever
     the smaller one has cached the larger one has cached too, and the larger one parses no
     more often (`larger_cache_parses_less`).  That takes care of requests whose bytes do not
     parse: they are answered, and use their id, only where that id happens to be cached.

  All three rest on one lemma about one request (`ids_served`): the order of use after it is the
  order before, with the answered id moved to the front and the list cut at the capacity.  What a
  list of such uses comes to is a fact about lists (`uses_eq`, `take_uses_take`), and when a key
  is among the first `cap` of the outcome is another one (`mem_take_reverse_dedup_iff`).
-/
import PpService.Lib.Recency
import PpService.Serving

namespace PpService

open Proto (BeatmapSource)
open Recency (touch uses Within)

variable {Map Mods GD GP : Type} (rosu : RosuPp Map Mods GD GP) (fs : Files)

/-! ## The order of use -/

/-- The cached ids, the last used first. -/
def BeatmapCache.ids (c : BeatmapCache Map) : List UInt32 := c.inner.keys

namespace BeatmapCache

variable {c : BeatmapCache Map} {id : UInt32}

/-- An id is cached when a look-up finds it. -/
theorem mem_ids : id ∈ c.ids ↔ (c.lookup id).isSome := LruMap.mem_keys

theorem lookup_of_not_mem (h : id ∉ c.ids) : c.lookup id = none := by
  rwa [mem_ids, Option.not_isSome_iff_eq_none] at h

theorem nodup_ids (c : BeatmapCache Map) : c.ids.Nodup := c.inner.nodup_keys

theorem length_ids_le (c : BeatmapCache Map) : c.ids.length ≤ c.inner.cap :=
  c.inner.length_keys_le

/-- A hit is a use of its id. -/
theorem ids_get_of_mem (h : id ∈ c.ids) : (c.get id).2.ids = touch id c.ids := by
  rw [ids, get_inner]
  exact LruMap.keys_get_of_mem h

theorem ids_get_of_not_mem (h : id ∉ c.ids) : (c.get id).2.ids = c.ids := by
  rw [ids, get_inner]
  exact LruMap.keys_get_of_not_mem h

/-- An insertion is a use with a cut. -/
theorem ids_insert (c : BeatmapCache Map) (id : UInt32) (map : Map) :
    (c.insert id map).ids = (touch id c.ids).take c.inner.cap :=
  LruMap.keys_put _ _ _

/-- A use of a cached id needs no cut. -/
theorem take_touch_ids (h : id ∈ c.ids) : (touch id c.ids).take c.inner.cap = touch id c.ids := by
  refine List.take_of_length_le ?_
  rw [Recency.length_touch_of_mem h]
  exact c.length_ids_le

/-- Reading an entry back right after its insertion uses the same id once more. -/
theorem ids_insert_get (c : BeatmapCache Map) (id : UInt32) (map : Map) :
    ((c.insert id map).get id).2.ids = (touch id c.ids).take c.inner.cap := by
  have hhead : ∃ rest, (touch id c.ids).take c.inner.cap = id :: rest := by
    obtain ⟨n, hn⟩ := Nat.exists_eq_succ_of_ne_zero c.inner.cap_pos.ne'
    exact ⟨(c.ids.erase id).take n, by rw [hn, touch, List.take_succ_cons]⟩
  obtain ⟨rest, hrest⟩ := hhead
  have hmem : id ∈ (c.insert id map).ids := by rw [ids_insert, hrest]; exact List.mem_cons_self
  rw [ids_get_of_mem hmem, ids_insert, hrest, touch, List.erase_cons_head]

end BeatmapCache

section

variable {rosu} {bytes : ByteArray} {id : UInt32} {c : BeatmapCache Map}

theorem ids_uncached (hid : parseBeatmapId bytes = none) :
    (parseBeatmapCached rosu bytes c).2.ids = c.ids := by
  rw [parseBeatmapCached_uncached rosu c hid]

/-- A hit uses its id. -/
theorem ids_hit (hid : parseBeatmapId bytes = some id) (hmem : id ∈ c.ids) :
    (parseBeatmapCached rosu bytes c).2.ids = touch id c.ids := by
  obtain ⟨map, hc⟩ := Option.isSome_iff_exists.mp (BeatmapCache.mem_ids.mp hmem)
  rw [parseBeatmapCached_hit rosu hid hc]
  exact BeatmapCache.ids_get_of_mem hmem

theorem ids_unparsable (hid : parseBeatmapId bytes = some id) (hmem : id ∉ c.ids) {err : Error}
    (hparse : parseBytes rosu bytes = .error err) :
    (parseBeatmapCached rosu bytes c).2.ids = c.ids := by
  have hc : c.lookup id = none := BeatmapCache.lookup_of_not_mem hmem
  rw [parseBeatmapCached_unparsable rosu hid hc hparse]
  exact BeatmapCache.ids_get_of_not_mem hmem

/-- A miss that parses uses its id, once for its insertion and its re-read together. -/
theorem ids_parsed (hid : parseBeatmapId bytes = some id) (hmem : id ∉ c.ids) {map : Map}
    (hparse : parseBytes rosu bytes = .ok map) :
    (parseBeatmapCached rosu bytes c).2.ids = (touch id c.ids).take c.inner.cap := by
  have hc : c.lookup id = none := BeatmapCache.lookup_of_not_mem hmem
  rw [parseBeatmapCached_parsed rosu hid hc hparse]
  show (((c.get id).2.insert id map).get id).2.ids = _
  rw [BeatmapCache.ids_insert_get, BeatmapCache.ids_get_of_not_mem hmem, BeatmapCache.cap_get]

end

/-! ## Contents -/

/-- The id under which a request is answered with a beatmap.  It depends on the cache: bytes that do
    not parse are answered all the same where their id is resident. -/
def answeredId (r : Files × BeatmapSource) (c : BeatmapCache Map) : Option UInt32 :=
  match (parseBeatmap rosu r.1 r.2 c).1 with
  -- a refused request counts for nothing
  | .error _ => none
  | .ok _ => (sourceBytes r.1 r.2).toOption.bind parseBeatmapId

/-- The ids answered in a run, in order; requests without an answer or without an id have no part
    in it. -/
def answeredIds : List (Files × BeatmapSource) → BeatmapCache Map → List UInt32
  | [], _ => []
  | r :: rest, c =>
    (answeredId rosu r c).toList ++ answeredIds rest (parseBeatmap rosu r.1 r.2 c).2

/-- What a request does to the order of use: a use of the id it is answered under. -/
theorem ids_served (r : Files × BeatmapSource) (c : BeatmapCache Map) :
    (parseBeatmap rosu r.1 r.2 c).2.ids =
      (uses (answeredId rosu r c).toList c.ids).take c.inner.cap := by
  have hsame : c.ids = (uses [] c.ids).take c.inner.cap :=
    (List.take_of_length_le c.length_ids_le).symm
  cases hb : sourceBytes r.1 r.2 with
  | error err =>
    rw [answeredId, parseBeatmap_of_error rosu r.1 hb]
    exact hsame
  | ok bytes =>
    rw [answeredId, hb, parseBeatmap_of_ok rosu r.1 hb]
    simp only [Except.toOption, Option.bind_some]
    cases hid : parseBeatmapId bytes with
    | none =>
      rw [ids_uncached hid]
      cases (parseBeatmapCached rosu bytes c).1 with
      | error err => exact hsame
      | ok map => exact hsame
    | some id =>
      by_cases hmem : id ∈ c.ids
      · -- a hit
        obtain ⟨map, hc⟩ := Option.isSome_iff_exists.mp (BeatmapCache.mem_ids.mp hmem)
        rw [ids_hit hid hmem, parseBeatmapCached_hit rosu hid hc]
        exact (BeatmapCache.take_touch_ids hmem).symm
      · -- a miss, and the parse decides
        have hc : c.lookup id = none := BeatmapCache.lookup_of_not_mem hmem
        cases hparse : parseBytes rosu bytes with
        | error err =>
          rw [ids_unparsable hid hmem hparse, parseBeatmapCached_unparsable rosu hid hc hparse]
          exact hsame
        | ok map =>
          rw [ids_parsed hid hmem hparse, parseBeatmapCached_parsed rosu hid hc hparse]
          rfl

/-- A request leaves the capacity as it is. -/
theorem cap_served (r : Files × BeatmapSource) (c : BeatmapCache Map) :
    (parseBeatmap rosu r.1 r.2 c).2.inner.cap = c.inner.cap := by
  cases hb : sourceBytes r.1 r.2 with
  | error err => rw [parseBeatmap_of_error rosu r.1 hb]
  | ok bytes =>
    rw [parseBeatmap_of_ok rosu r.1 hb]
    exact serves_cap rosu (serves_parseBeatmapCached rosu bytes c)

/-- A run uses the ids it answers, one after the other. -/
theorem ids_serveAll (run : List (Files × BeatmapSource)) (c : BeatmapCache Map) :
    (serveAll rosu run c).ids = (uses (answeredIds rosu run c) c.ids).take c.inner.cap := by
  induction run generalizing c with
  | nil => exact (List.take_of_length_le c.length_ids_le).symm
  | cons r rest ih =>
    -- the cut after the first request does not show in the end
    have happend : uses (answeredIds rosu (r :: rest) c) c.ids =
        uses (answeredIds rosu rest (parseBeatmap rosu r.1 r.2 c).2)
          (uses (answeredId rosu r c).toList c.ids) := List.foldl_append
    show (serveAll rosu rest (parseBeatmap rosu r.1 r.2 c).2).ids = _
    rw [ih, ids_served, cap_served, Recency.take_uses_take, happend]

/-- **What is cached.**  After any run the cached ids are the distinct ids that were answered,
    the latest first, up to the capacity. -/
theorem serveAll_ids (run : List (Files × BeatmapSource)) (size : Nat) :
    (serveAll rosu run (.new size)).ids =
      (answeredIds rosu run (.new size)).dedup.reverse.take (max size 1) := by
  have hnew : (BeatmapCache.new size : BeatmapCache Map).ids = [] := rfl
  rw [ids_serveAll, hnew, Recency.uses_eq _ List.nodup_nil, List.filter_nil, List.append_nil]
  rfl

/-! ## Residency -/

/-- **When a request is served from the cache**: if its id has been answered before and fewer
    distinct ids than the capacity have been answered since. -/
theorem servedFromCache_iff (earlier : List (Files × BeatmapSource)) (size : Nat)
    (source : BeatmapSource) :
    servedFromCache fs source (serveAll rosu earlier (.new size)) = true ↔
      ∃ bytes id before after, sourceBytes fs source = .ok bytes ∧
        parseBeatmapId bytes = some id ∧
        answeredIds rosu earlier (.new size) = before ++ id :: after ∧ id ∉ after ∧
        after.dedup.length < max size 1 := by
  have hresident : ∀ id, ((serveAll rosu earlier (.new size)).lookup id).isSome ↔
      ∃ before after, answeredIds rosu earlier (.new size) = before ++ id :: after ∧ id ∉ after ∧
        after.dedup.length < max size 1 := by
    intro id
    rw [← BeatmapCache.mem_ids, serveAll_ids, Recency.mem_take_reverse_dedup_iff]
  cases hb : sourceBytes fs source with
  | error err => simp [servedFromCache, hb]
  | ok bytes =>
    have hserved : ∀ c : BeatmapCache Map, servedFromCache fs source c =
        ((parseBeatmapId bytes).bind c.lookup).isSome := by
      intro c
      rw [servedFromCache, hb]
    cases hid : parseBeatmapId bytes with
    | none => simp [hserved, hid]
    | some id =>
      rw [hserved, hid, Option.bind_some, hresident]
      constructor
      · -- the request's own id is the one
        rintro ⟨before, after, h⟩
        exact ⟨bytes, id, before, after, rfl, hid, h⟩
      · rintro ⟨bytes', id', before, after, hbytes, hid', h⟩
        obtain rfl : bytes = bytes' := Except.ok.inj hbytes
        obtain rfl : id = id' := Option.some.inj (hid.symm.trans hid')
        exact ⟨before, after, h⟩

/-! ## Capacity -/

/-- Two caches, the first with less room, that serve the same requests: the smaller one holds a
    part of what the larger one holds, in the same order of use. -/
structure Beside (c c' : BeatmapCache Map) : Prop where
  cap_le : c.inner.cap ≤ c'.inner.cap
  within : Within c.inner.cap c.ids c'.ids

/-- **One request on both caches**: they stay beside each other, and the larger one parses only
    where the smaller one does. -/
theorem Beside.served {c c' : BeatmapCache Map} (h : Beside c c') (r : Files × BeatmapSource) :
    Beside (parseBeatmap rosu r.1 r.2 c).2 (parseBeatmap rosu r.1 r.2 c').2 ∧
      (runsFromBytes r.1 r.2 c').toNat ≤ (runsFromBytes r.1 r.2 c).toNat := by
  cases hb : sourceBytes r.1 r.2 with
  | error err =>
    rw [parseBeatmap_of_error rosu r.1 hb, parseBeatmap_of_error rosu r.1 hb]
    exact ⟨h, by simp [runsFromBytes, hb]⟩
  | ok bytes =>
    have hruns : ∀ c : BeatmapCache Map, runsFromBytes r.1 r.2 c =
        ((parseBeatmapId bytes).bind c.lookup).isNone := by
      intro c
      rw [runsFromBytes, hb]
    have hcap : (parseBeatmap rosu r.1 r.2 c).2.inner.cap ≤
        (parseBeatmap rosu r.1 r.2 c').2.inner.cap := by
      rw [cap_served, cap_served]
      exact h.cap_le
    suffices hwithin : Within c.inner.cap (parseBeatmap rosu r.1 r.2 c).2.ids
        (parseBeatmap rosu r.1 r.2 c').2.ids ∧
        (runsFromBytes r.1 r.2 c').toNat ≤ (runsFromBytes r.1 r.2 c).toNat by
      exact ⟨⟨hcap, by rw [cap_served]; exact hwithin.1⟩, hwithin.2⟩
    rw [parseBeatmap_of_ok rosu r.1 hb, parseBeatmap_of_ok rosu r.1 hb, hruns, hruns]
    cases hid : parseBeatmapId bytes with
    | none =>
      -- parsed on both, cached on neither
      rw [ids_uncached hid, ids_uncached hid]
      exact ⟨h.within, by simp⟩
    | some id =>
      have hparses : ∀ {c : BeatmapCache Map}, id ∉ c.ids →
          ((some id).bind c.lookup).isNone = true := by
        intro c hmem
        simp [BeatmapCache.lookup_of_not_mem hmem]
      have hfinds : ∀ {c : BeatmapCache Map}, id ∈ c.ids →
          ((some id).bind c.lookup).isNone = false := by
        intro c hmem
        simpa using BeatmapCache.mem_ids.mp hmem
      by_cases hmem : id ∈ c.ids
      · -- a hit on both
        have hmem' : id ∈ c'.ids := h.within.sublist.subset hmem
        rw [ids_hit hid hmem, ids_hit hid hmem', hfinds hmem, hfinds hmem']
        exact ⟨h.within.hit hmem, Nat.le_refl _⟩
      · by_cases hmem' : id ∈ c'.ids
        · -- a hit on the larger one only
          rw [ids_hit hid hmem', hparses hmem, hfinds hmem']
          cases hparse : parseBytes rosu bytes with
          | error err =>
            -- the larger cache answers what the smaller one cannot parse
            rw [ids_unparsable hid hmem hparse]
            exact ⟨h.within.hit_big hmem hmem', by simp⟩
          | ok map =>
            rw [ids_parsed hid hmem hparse]
            exact ⟨h.within.put_hit c.length_ids_le hmem hmem', by simp⟩
        · -- a miss on both
          rw [hparses hmem, hparses hmem']
          cases hparse : parseBytes rosu bytes with
          | error err =>
            rw [ids_unparsable hid hmem hparse, ids_unparsable hid hmem' hparse]
            exact ⟨h.within, Nat.le_refl _⟩
          | ok map =>
            rw [ids_parsed hid hmem hparse, ids_parsed hid hmem' hparse]
            exact ⟨h.within.put c.inner.cap_pos c.length_ids_le h.cap_le c'.length_ids_le hmem',
              Nat.le_refl _⟩

/-- Side by side through a run: what the smaller cache holds and how often each parses. -/
theorem Beside.serveAll {c c' : BeatmapCache Map} (h : Beside c c')
    (run : List (Files × BeatmapSource)) :
    Beside (serveAll rosu run c) (PpService.serveAll rosu run c') ∧
      callsWhere rosu runsFromBytes run c' ≤ callsWhere rosu runsFromBytes run c := by
  induction run generalizing c c' with
  | nil => exact ⟨h, Nat.le_refl _⟩
  | cons r rest ih =>
    obtain ⟨hstep, hparse⟩ := h.served rosu r
    obtain ⟨hrest, hparses⟩ := ih hstep
    exact ⟨hrest, Nat.add_le_add hparse hparses⟩

/-- **A larger cache never does worse.**  On the same requests it has cached whatever a smaller
    one has cached, at any time, and it parses no more often. -/
theorem larger_cache_parses_less (run : List (Files × BeatmapSource)) (size more : Nat) :
    (∀ id, ((serveAll rosu run (.new size)).lookup id).isSome →
      ((serveAll rosu run (.new (size + more))).lookup id).isSome) ∧
    callsWhere rosu runsFromBytes run (.new (size + more)) ≤
      callsWhere rosu runsFromBytes run (.new size) := by
  have hstart : Beside (BeatmapCache.new size : BeatmapCache Map) (.new (size + more)) := by
    refine ⟨?_, List.Sublist.refl _, Or.inr rfl⟩
    show max size 1 ≤ max (size + more) 1
    omega
  obtain ⟨hbeside, hparses⟩ := hstart.serveAll rosu run
  refine ⟨?_, hparses⟩
  intro id
  rw [← BeatmapCache.mem_ids, ← BeatmapCache.mem_ids]
  exact fun hmem => hbeside.within.sublist.subset hmem

end PpService
