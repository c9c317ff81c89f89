/-
  THE BEATMAP CACHE of `src/cache.rs`: an LRU map from beatmap ids to parsed beatmaps, with its
  two counters.  `get` and `insert` each run under the lock, so each is one atomic function of
  the cache; the counters are `u64` and wrap.

  `Coherent sent c` is the invariant everything about the contents rests on: the beatmap stored
  under an id is what some byte string with that id, out of those in `sent`, parses to.

  The library's `LruMap` keeps the entries, and what the two operations do to them is stated in
  its terms: `lookup` is the contents as a partial function, `victim` the id that an insertion
  drops.  A read changes the contents nowhere (`lookup_get`), an insertion at its id and at its
  victim (`lookup_insert_self`, `lookup_insert_ne`), and no proof about the cache looks further
  in than that.
-/
import PpService.BeatmapId
import PpService.Lib.Lru
import PpService.Rosu

namespace PpService

/-- What the lock guards: the map and the two counters. -/
structure BeatmapCache (Map : Type) where
  inner : LruMap UInt32 Map
  hits : UInt64
  misses : UInt64

/-- What `/health` shows. -/
structure CacheStats where
  size : Nat
  capacity : Nat
  hits : UInt64
  misses : UInt64
  deriving DecidableEq

namespace BeatmapCache

variable {Map : Type}

/-- A capacity of zero becomes one (`NonZeroUsize::new(size).unwrap_or(NonZeroUsize::MIN)`). -/
def new (size : Nat) : BeatmapCache Map :=
  { inner := LruMap.empty (max size 1) (by omega), hits := 0, misses := 0 }

/-- `cache::get`, one locked section: the look-up and the counter for its outcome. -/
def get (beatmapId : UInt32) (c : BeatmapCache Map) : Option Map × BeatmapCache Map :=
  let (result, inner) := c.inner.get beatmapId
  match result with
  | some map => (some map, { c with inner, hits := c.hits + 1 })
  | none => (none, { c with inner, misses := c.misses + 1 })

/-- `cache::insert`, the other one.  It counts nothing, and it answers nothing either: what it
    evicts is dropped. -/
def insert (beatmapId : UInt32) (beatmap : Map) (c : BeatmapCache Map) : BeatmapCache Map :=
  { c with inner := c.inner.put beatmapId beatmap }

/-- `cache::stats`.  Size and capacity are the map's, the two counters those of the reads; an
    insertion counts nowhere. -/
def stats (c : BeatmapCache Map) : CacheStats :=
  { size := c.inner.len, capacity := c.inner.cap, hits := c.hits, misses := c.misses }

/-- What is cached under an id: the contents of the cache as a partial function. -/
def lookup (c : BeatmapCache Map) (id : UInt32) : Option Map := c.inner.lookup id

/-- The id an `insert` of `id` would evict: the one used last longest ago, if the map is full and
    does not hold `id`. -/
def victim (c : BeatmapCache Map) (id : UInt32) : Option UInt32 := c.inner.victim id

/-! ## What the operations do to the contents -/

/-- A new cache has nothing. -/
@[simp] theorem lookup_new (size : Nat) (id : UInt32) :
    (new size : BeatmapCache Map).lookup id = none :=
  LruMap.lookup_empty _ _ id

/-- A hit counts and makes the entry the most recent one. -/
theorem get_of_some {c : BeatmapCache Map} {id : UInt32} {map : Map} (h : c.lookup id = some map) :
    c.get id = (some map, { c with inner := (c.inner.get id).2, hits := c.hits + 1 }) := by
  unfold lookup at h
  simp only [get, LruMap.get_fst, h]

/-- A miss only counts. -/
theorem get_of_none {c : BeatmapCache Map} {id : UInt32} (h : c.lookup id = none) :
    c.get id = (none, { c with misses := c.misses + 1 }) := by
  unfold lookup at h
  simp only [get, LruMap.get_of_none h]

/-- What a `get` answers is what is there. -/
@[simp] theorem get_fst (c : BeatmapCache Map) (id : UInt32) : (c.get id).1 = c.lookup id := by
  cases h : c.lookup id with
  | none => rw [get_of_none h]
  | some map => rw [get_of_some h]

/-- `get` touches the map as the map's own `get` does, besides the counters. -/
theorem get_inner (c : BeatmapCache Map) (id : UInt32) :
    (c.get id).2.inner = (c.inner.get id).2 := by
  rcases hget : c.inner.get id with ⟨_ | map, inner⟩
  · -- a miss
    simp only [get, hget]
  · -- a hit
    simp only [get, hget]

/-- `get` changes the order of use and a counter, not the contents. -/
@[simp] theorem lookup_get (c : BeatmapCache Map) (id id' : UInt32) :
    (c.get id).2.lookup id' = c.lookup id' := by
  show (c.get id).2.inner.lookup id' = c.inner.lookup id'
  rw [get_inner, LruMap.lookup_get]

/-- The beatmap just inserted is there. -/
@[simp] theorem lookup_insert_self (c : BeatmapCache Map) (id : UInt32) (map : Map) :
    (c.insert id map).lookup id = some map :=
  LruMap.lookup_put_self _ _ _

/-- An insertion changes no other entry than the victim's, and drops that one. -/
theorem lookup_insert_ne (c : BeatmapCache Map) {id id' : UInt32} (map : Map) (h : id' ≠ id) :
    (c.insert id map).lookup id' = if c.victim id = some id' then none else c.lookup id' :=
  LruMap.lookup_put_ne _ _ h

/-- An insertion never evicts the id it is for. -/
theorem victim_ne {c : BeatmapCache Map} {id id' : UInt32} (h : c.victim id = some id') :
    id' ≠ id :=
  (LruMap.victim_mem h).2

@[simp] theorem cap_get (c : BeatmapCache Map) (id : UInt32) :
    (c.get id).2.inner.cap = c.inner.cap := by
  rw [get_inner, LruMap.cap_get]

@[simp] theorem cap_insert (c : BeatmapCache Map) (id : UInt32) (map : Map) :
    (c.insert id map).inner.cap = c.inner.cap :=
  LruMap.cap_put _ _ _

/-- The size shown never exceeds the capacity shown. -/
theorem stats_size_le (c : BeatmapCache Map) : c.stats.size ≤ c.stats.capacity :=
  c.inner.len_le_cap

/-! ## Coherence -/

variable {Mods GD GP : Type} (rosu : RosuPp Map Mods GD GP)

/-- Every cached beatmap is the parse of some byte string out of `sent` with its id.  Which byte
    string is lost once it has been parsed: the cache keeps the map and the id only. -/
def Coherent (sent : ByteArray → Prop) (c : BeatmapCache Map) : Prop :=
  ∀ id map, c.lookup id = some map →
    ∃ bytes, sent bytes ∧ parseBeatmapId bytes = some id ∧ rosu.fromBytes bytes = .ok map

variable {rosu} {sent : ByteArray → Prop} {c : BeatmapCache Map}

theorem Coherent.new (size : Nat) : Coherent rosu sent (new size) :=
  LruMap.AllEntries.empty _ _

theorem Coherent.get (h : Coherent rosu sent c) (id : UInt32) :
    Coherent rosu sent (c.get id).2 := by
  unfold Coherent lookup
  rw [get_inner]
  exact LruMap.AllEntries.get h id

/-- An insertion after a parse of bytes that were sent adds what those bytes parse to. -/
theorem Coherent.insert (h : Coherent rosu sent c) {bytes : ByteArray} {id : UInt32} {map : Map}
    (hsent : sent bytes) (hid : parseBeatmapId bytes = some id)
    (hparse : rosu.fromBytes bytes = .ok map) : Coherent rosu sent (c.insert id map) :=
  LruMap.AllEntries.put h ⟨bytes, hsent, hid, hparse⟩

end BeatmapCache

end PpService
