/-
  SERVING REQUESTS ONE AFTER ANOTHER: what `parse_beatmap` and `load_beatmap` do to the cache,
  and what the cache does to their answers.

  1. **The four ways through `parse_beatmap_cached`** (`Serves`).  No id: parse, and leave the
     cache alone.  A resident id: the resident map, unparsed.  An absent id: parse; on an error
     only the miss is counted, otherwise the map is inserted and read again.  Everything below
     is a case analysis over these four.

  2. **Transparency.**  The cache is keyed by the id a text claims, not by the text.  So what
     is answered for `bytes` is the parse of `bytes` or the parse of other bytes with the same
     id that came earlier (`Coherent` is the invariant), and the two agree when all the bytes
     sent under that id parse to one map.

  3. **Rejected requests.**  Without a source or without a parse the entries stay as they are.
     The suspicion check comes after the insertion, so a suspicious map is cached like any
     other, and is rejected again whenever it is loaded.

  4. **The counters.**  The read after an insertion counts as a hit: a run of calls counts one
     miss for each call that parsed and one hit for EVERY call.

  Runs are sequential here, one call after the other; `PpService.Interleaving` has the runs in
  which calls overlap, and the four ways come back there as the turns of a call alone.
-/
import PpService.Calculator

namespace PpService

open Proto (BeatmapSource)

variable {Map Mods GD GP : Type} (rosu : RosuPp Map Mods GD GP) (fs : Files)

/-! ## The bytes of a request -/

/-- The bytes of the beatmap of a request: its content, or the file under its path. -/
def sourceBytes (source : BeatmapSource) : Except Error ByteArray :=
  match source.source with
  | some (.content bytes) => .ok bytes
  | some (.path path) => (fs path).mapError Error.parse
  | none => .error .missingBeatmap

/-- A request without bytes is refused before the cache is asked. -/
theorem parseBeatmap_of_error {source : BeatmapSource} {err : Error}
    (h : sourceBytes fs source = .error err) (c : BeatmapCache Map) :
    parseBeatmap rosu fs source c = (.error err, c) := by
  obtain ⟨_ | bytes | path⟩ := source
  · -- no source at all
    simp only [sourceBytes, Except.error.injEq] at h
    rw [parseBeatmap, h]
  · -- content always has bytes
    simp only [sourceBytes, reduceCtorEq] at h
  · -- a path has the bytes of its file, if there is one
    cases hp : fs path with
    | error why =>
      simp only [sourceBytes, hp, Except.mapError, Except.error.injEq] at h
      simp only [parseBeatmap, hp, h]
    | ok bytes => simp only [sourceBytes, hp, Except.mapError, reduceCtorEq] at h

/-- A request with bytes is a matter of those bytes alone. -/
theorem parseBeatmap_of_ok {source : BeatmapSource} {bytes : ByteArray}
    (h : sourceBytes fs source = .ok bytes) (c : BeatmapCache Map) :
    parseBeatmap rosu fs source c = parseBeatmapCached rosu bytes c := by
  obtain ⟨_ | content | path⟩ := source
  · simp only [sourceBytes, reduceCtorEq] at h
  · simp only [sourceBytes, Except.ok.injEq] at h
    rw [parseBeatmap, h]
  · cases hp : fs path with
    | error why => simp only [sourceBytes, hp, Except.mapError, reduceCtorEq] at h
    | ok content =>
      simp only [sourceBytes, hp, Except.mapError, Except.ok.injEq] at h
      simp only [parseBeatmap, hp, h]

/-- Bytes can only be missing for want of a source or for want of a readable file. -/
theorem sourceBytes_error {source : BeatmapSource} {err : Error}
    (h : sourceBytes fs source = .error err) :
    (source.source = none ∧ err = .missingBeatmap) ∨ ∃ why, err = .parse why := by
  obtain ⟨_ | content | path⟩ := source
  · simp only [sourceBytes, Except.error.injEq] at h
    exact Or.inl ⟨rfl, h.symm⟩
  · simp only [sourceBytes, reduceCtorEq] at h
  · cases hp : fs path with
    | error why =>
      simp only [sourceBytes, hp, Except.mapError, Except.error.injEq] at h
      exact Or.inr ⟨why, h.symm⟩
    | ok content => simp only [sourceBytes, hp, Except.mapError, reduceCtorEq] at h

/-- The bytes of a request whose beatmap field may be missing altogether. -/
def requestBytes (source : Option BeatmapSource) : Except Error ByteArray :=
  match source with
  | none => .error .missingBeatmap
  | some source => sourceBytes fs source

/-- A request without bytes names what is missing: the source, or why its file cannot be read. -/
theorem requestBytes_error {source : Option BeatmapSource} {err : Error}
    (h : requestBytes fs source = .error err) :
    (source.bind (·.source) = none ∧ err = .missingBeatmap) ∨ ∃ why, err = .parse why := by
  cases source with
  | none => exact Or.inl ⟨rfl, (Except.error.inj h).symm⟩
  | some s => exact sourceBytes_error fs h

/-- Without a source there are no bytes. -/
theorem requestBytes_of_no_source {source : Option BeatmapSource}
    (h : source.bind (·.source) = none) :
    requestBytes fs source = .error .missingBeatmap := by
  rcases source with _ | ⟨_ | _⟩
  · rfl
  · rfl
  · cases h

theorem loadBeatmap_of_error {source : Option BeatmapSource} {err : Error}
    (h : requestBytes fs source = .error err) (c : BeatmapCache Map) :
    Calculator.loadBeatmap rosu fs source c = (.error err, c) := by
  cases source with
  | none =>
    obtain rfl : Error.missingBeatmap = err := Except.error.inj h
    rfl
  | some s =>
    rw [Calculator.loadBeatmap, parseBeatmap_of_error rosu fs h]
    rfl

/-- `load_beatmap` looks for suspicion in whatever beatmap it gets. -/
theorem loadBeatmap_of_ok {source : Option BeatmapSource} {bytes : ByteArray}
    (h : requestBytes fs source = .ok bytes) (c : BeatmapCache Map) :
    Calculator.loadBeatmap rosu fs source c
      = thenPure (parseBeatmapCached rosu bytes c) (Calculator.checkSuspicion rosu) := by
  cases source with
  | none => cases h
  | some s => rw [Calculator.loadBeatmap, parseBeatmap_of_ok rosu fs h]

/-! ## The four ways through `parse_beatmap_cached` -/

/-- What `parse_beatmap_cached` answers and leaves behind, by the way it takes.  The result is one
    index, so that a case analysis settles answer and cache together. -/
inductive Serves (bytes : ByteArray) (c : BeatmapCache Map) :
    Except Error Map × BeatmapCache Map → Prop where
  | uncached (hid : parseBeatmapId bytes = none) : Serves bytes c (parseBytes rosu bytes, c)
  | hit (id : UInt32) (map : Map) (hid : parseBeatmapId bytes = some id)
      (hc : c.lookup id = some map) : Serves bytes c (.ok map, (c.get id).2)
  | unparsable (id : UInt32) (err : Error) (hid : parseBeatmapId bytes = some id)
      (hc : c.lookup id = none) (hparse : parseBytes rosu bytes = .error err) :
      Serves bytes c (.error err, (c.get id).2)
  | parsed (id : UInt32) (map : Map) (hid : parseBeatmapId bytes = some id)
      (hc : c.lookup id = none) (hparse : parseBytes rosu bytes = .ok map) :
      Serves bytes c (.ok map, (((c.get id).2.insert id map).get id).2)

theorem parseBeatmapCached_uncached {bytes : ByteArray} (c : BeatmapCache Map)
    (hid : parseBeatmapId bytes = none) :
    parseBeatmapCached rosu bytes c = (parseBytes rosu bytes, c) := by
  simp only [parseBeatmapCached, hid]

theorem parseBeatmapCached_hit {bytes : ByteArray} {c : BeatmapCache Map} {id : UInt32} {map : Map}
    (hid : parseBeatmapId bytes = some id) (hc : c.lookup id = some map) :
    parseBeatmapCached rosu bytes c = (.ok map, (c.get id).2) := by
  simp only [parseBeatmapCached, hid, BeatmapCache.get_of_some hc]

theorem parseBeatmapCached_unparsable {bytes : ByteArray} {c : BeatmapCache Map} {id : UInt32}
    {err : Error} (hid : parseBeatmapId bytes = some id) (hc : c.lookup id = none)
    (hparse : parseBytes rosu bytes = .error err) :
    parseBeatmapCached rosu bytes c = (.error err, (c.get id).2) := by
  simp only [parseBeatmapCached, hid, BeatmapCache.get_of_none hc, hparse]

theorem parseBeatmapCached_parsed {bytes : ByteArray} {c : BeatmapCache Map} {id : UInt32}
    {map : Map} (hid : parseBeatmapId bytes = some id) (hc : c.lookup id = none)
    (hparse : parseBytes rosu bytes = .ok map) :
    parseBeatmapCached rosu bytes c = (.ok map, (((c.get id).2.insert id map).get id).2) := by
  -- the re-read finds what was inserted: nobody else had a turn
  have hread := BeatmapCache.get_of_some (BeatmapCache.lookup_insert_self (c.get id).2 id map)
  rw [BeatmapCache.get_of_none hc] at hread ⊢
  simp only [parseBeatmapCached, hid, BeatmapCache.get_of_none hc, hparse, hread]

/-- There is no fifth way. -/
theorem serves_parseBeatmapCached (bytes : ByteArray) (c : BeatmapCache Map) :
    Serves rosu bytes c (parseBeatmapCached rosu bytes c) := by
  cases hid : parseBeatmapId bytes with
  | none =>
    rw [parseBeatmapCached_uncached rosu c hid]
    exact .uncached hid
  | some id =>
    cases hc : c.lookup id with
    | some map =>
      rw [parseBeatmapCached_hit rosu hid hc]
      exact .hit id map hid hc
    | none =>
      cases hparse : parseBytes rosu bytes with
      | error err =>
        rw [parseBeatmapCached_unparsable rosu hid hc hparse]
        exact .unparsable id err hid hc hparse
      | ok map =>
        rw [parseBeatmapCached_parsed rosu hid hc hparse]
        exact .parsed id map hid hc hparse

/-- No way through changes the capacity. -/
theorem serves_cap {bytes : ByteArray} {c : BeatmapCache Map}
    {r : Except Error Map × BeatmapCache Map} (hway : Serves rosu bytes c r) :
    r.2.inner.cap = c.inner.cap := by
  cases hway with
  | uncached hid => rfl
  | hit id map hid hc => exact BeatmapCache.cap_get c id
  | unparsable id err hid hc hparse => exact BeatmapCache.cap_get c id
  | parsed id map hid hc hparse =>
    show (((c.get id).2.insert id map).get id).2.inner.cap = c.inner.cap
    rw [BeatmapCache.cap_get, BeatmapCache.cap_insert, BeatmapCache.cap_get]

/-- With nothing cached the answer is the parse of the bytes. -/
theorem parseBeatmapCached_new (bytes : ByteArray) (size : Nat) :
    (parseBeatmapCached rosu bytes (.new size)).1 = parseBytes rosu bytes := by
  have hway := serves_parseBeatmapCached rosu bytes (.new size)
  generalize parseBeatmapCached rosu bytes (.new size) = r at hway ⊢
  cases hway with
  | uncached hid => rfl
  | hit id map hid hc => rw [BeatmapCache.lookup_new] at hc; cases hc
  | unparsable id err hid hc hparse => exact hparse.symm
  | parsed id map hid hc hparse => exact hparse.symm

theorem parseBytes_eq_ok {bytes : ByteArray} {map : Map} :
    parseBytes rosu bytes = .ok map ↔ rosu.fromBytes bytes = .ok map := by
  unfold parseBytes
  cases rosu.fromBytes bytes <;> simp [Except.mapError]

/-- A parse that fails does so with `Error::Parse`. -/
theorem parseBytes_error {bytes : ByteArray} {err : Error}
    (h : parseBytes rosu bytes = .error err) : ∃ why, err = .parse why := by
  unfold parseBytes at h
  cases hb : rosu.fromBytes bytes with
  | error why => exact ⟨why, by simpa [hb, Except.mapError, eq_comm] using h⟩
  | ok map => simp [hb, Except.mapError] at h

/-! ## Runs -/

/-- The cache after serving requests one after another; each finds its own files.  What the requests
    are answered does not matter here, only what they leave behind. -/
def serveAll : List (Files × BeatmapSource) → BeatmapCache Map → BeatmapCache Map
  | [], c => c
  | (fs, source) :: rest, c => serveAll rest (parseBeatmap rosu fs source c).2

/-- What every request keeps, every run keeps. -/
theorem serveAll_invariant {I : BeatmapCache Map → Prop} {run : List (Files × BeatmapSource)}
    (hstep : ∀ r ∈ run, ∀ c, I c → I (parseBeatmap rosu r.1 r.2 c).2)
    {c : BeatmapCache Map} (hc : I c) : I (serveAll rosu run c) := by
  induction run generalizing c with
  | nil => exact hc
  | cons r rest ih =>
    have hfirst : I (parseBeatmap rosu r.1 r.2 c).2 := hstep r List.mem_cons_self c hc
    exact ih (fun r' hr' => hstep r' (List.mem_cons_of_mem _ hr')) hfirst

/-- Some request of a run carried these bytes. -/
def SentIn (run : List (Files × BeatmapSource)) (bytes : ByteArray) : Prop :=
  ∃ r ∈ run, sourceBytes r.1 r.2 = .ok bytes

namespace BeatmapCache

variable {rosu} {sent : ByteArray → Prop} {c : BeatmapCache Map}

/-- Bytes that count as sent may be served: what is inserted for them is their own parse. -/
theorem Coherent.served (h : Coherent rosu sent c) {bytes : ByteArray} (hsent : sent bytes) :
    Coherent rosu sent (parseBeatmapCached rosu bytes c).2 := by
  have hway := serves_parseBeatmapCached rosu bytes c
  generalize parseBeatmapCached rosu bytes c = r at hway ⊢
  cases hway with
  | uncached hid => exact h
  | hit id map hid hc => exact h.get id
  | unparsable id err hid hc hparse => exact h.get id
  | parsed id map hid hc hparse =>
    exact ((h.get id).insert hsent hid ((parseBytes_eq_ok rosu).mp hparse)).get id

end BeatmapCache

open BeatmapCache (Coherent)

/-- In every reachable state, what is cached under an id is the parse of bytes that some
    earlier request carried and that have this id. -/
theorem coherent_serveAll (run : List (Files × BeatmapSource)) (size : Nat) :
    Coherent rosu (SentIn run) (serveAll rosu run (.new size)) := by
  refine serveAll_invariant rosu ?_ (Coherent.new size)
  intro r hr c hc
  cases hb : sourceBytes r.1 r.2 with
  | error err => rw [parseBeatmap_of_error rosu r.1 hb]; exact hc
  | ok bytes =>
    rw [parseBeatmap_of_ok rosu r.1 hb]
    exact hc.served ⟨r, hr, hb⟩

/-! ## Transparency -/

/-- On a coherent cache the answer is the parse of the bytes, or of other bytes with the same
    id. -/
theorem parseBeatmapCached_answer {sent : ByteArray → Prop} {c : BeatmapCache Map}
    (hc : Coherent rosu sent c) (bytes : ByteArray) :
    (parseBeatmapCached rosu bytes c).1 = parseBytes rosu bytes ∨
      ∃ id other map, parseBeatmapId bytes = some id ∧ sent other ∧
        parseBeatmapId other = some id ∧ rosu.fromBytes other = .ok map ∧
        (parseBeatmapCached rosu bytes c).1 = .ok map := by
  have hway := serves_parseBeatmapCached rosu bytes c
  generalize parseBeatmapCached rosu bytes c = r at hway ⊢
  cases hway with
  | uncached hid => exact Or.inl rfl
  | hit id map hid hlookup =>
    -- the only answer that can be somebody else's
    obtain ⟨other, hsent, hother, hparse⟩ := hc id map hlookup
    exact Or.inr ⟨id, other, map, hid, hsent, hother, hparse, rfl⟩
  | unparsable id err hid hlookup hparse => exact Or.inl hparse.symm
  | parsed id map hid hlookup hparse => exact Or.inl hparse.symm

/-- **Transparency up to the id.**  The answer on any reachable cache is the one on an empty
    cache, unless an earlier request carried bytes with the same id that parse to another map;
    then it may be that map. -/
theorem parseBeatmap_transparent_up_to_id (size : Nat) (earlier : List (Files × BeatmapSource))
    (source : BeatmapSource) (bytes : ByteArray) (hb : sourceBytes fs source = .ok bytes) :
    (parseBeatmap rosu fs source (.new size)).1 = parseBytes rosu bytes ∧
    ((∀ id other map, SentIn earlier other → parseBeatmapId bytes = some id →
        parseBeatmapId other = some id → rosu.fromBytes other = .ok map →
        rosu.fromBytes bytes = .ok map) →
      (parseBeatmap rosu fs source (serveAll rosu earlier (.new size))).1
        = (parseBeatmap rosu fs source (.new size)).1) ∧
    ((parseBeatmap rosu fs source (serveAll rosu earlier (.new size))).1
        = (parseBeatmap rosu fs source (.new size)).1 ∨
      ∃ id other map, parseBeatmapId bytes = some id ∧ SentIn earlier other ∧
        parseBeatmapId other = some id ∧ rosu.fromBytes other = .ok map ∧
        (parseBeatmap rosu fs source (serveAll rosu earlier (.new size))).1 = .ok map) := by
  rw [parseBeatmap_of_ok rosu fs hb, parseBeatmap_of_ok rosu fs hb, parseBeatmapCached_new]
  have hanswer := parseBeatmapCached_answer rosu (coherent_serveAll rosu earlier size) bytes
  refine ⟨rfl, ?_, hanswer⟩
  intro hsame
  rcases hanswer with hfresh | ⟨id, other, map, hid, hsent, hother, hparse, hans⟩
  · -- the bytes were parsed
    exact hfresh
  · -- what was resident came from other bytes, which parse alike
    have hmap : rosu.fromBytes bytes = .ok map := hsame id other map hsent hid hother hparse
    rw [hans]
    exact ((parseBytes_eq_ok rosu).mpr hmap).symm

/-! ### Two texts that claim one id -/

/-- A source that carries its bytes. -/
def contentSource (text : String) : BeatmapSource := { source := some (.content text.toUTF8) }

/-- A file system without files. -/
def noFiles : Files := fun _ => .error ⟨"No such file or directory (os error 2)"⟩

/-- A song with an id, and everything else at its default. -/
def songA : String := "osu file format v14\n\n[Metadata]\nTitle:A\nBeatmapID:1\n"

/-- The same song under the same id, but with smaller circles than the default. -/
def songB : String :=
  "osu file format v14\n\n[Metadata]\nTitle:A\nBeatmapID:1\n\n[Difficulty]\nCircleSize:7\n"

theorem parseBeatmapId_songA : parseBeatmapId songA.toUTF8 = some 1 := by
  rw [parseBeatmapId_toUTF8]
  decide

theorem parseBeatmapId_songB : parseBeatmapId songB.toUTF8 = some 1 := by
  rw [parseBeatmapId_toUTF8]
  decide

theorem songA_ne_songB : songA.toUTF8 ≠ songB.toUTF8 := by decide

/-- Once the one text has been served, the other one is answered with the first: a caller who
    sends `CircleSize:7` gets the beatmap of a caller who left it at its default. -/
theorem parseBeatmap_not_transparent :
    (parseBeatmap RosuPp.sample noFiles (contentSource songB)
        (serveAll RosuPp.sample [(noFiles, contentSource songA)] (.new 1))).1
      ≠ (parseBeatmap RosuPp.sample noFiles (contentSource songB) (.new 1)).1 := by
  show (parseBeatmapCached RosuPp.sample songB.toUTF8
      (parseBeatmapCached RosuPp.sample songA.toUTF8 (.new 1)).2).1
    ≠ (parseBeatmapCached RosuPp.sample songB.toUTF8 (.new 1)).1
  rw [parseBeatmapCached_new,
    parseBeatmapCached_parsed _ parseBeatmapId_songA (BeatmapCache.lookup_new 1 1) rfl]
  have hresident : ((((BeatmapCache.new 1).get 1).2.insert 1 songA.toUTF8).get 1).2.lookup 1
      = some songA.toUTF8 := by
    rw [BeatmapCache.lookup_get, BeatmapCache.lookup_insert_self]
  rw [parseBeatmapCached_hit _ parseBeatmapId_songB hresident]
  intro hsame
  exact songA_ne_songB (Except.ok.inj hsame)

/-- The theorem at a cache that has served another text, with another id. -/
theorem parseBeatmap_transparent_song :
    (parseBeatmap RosuPp.sample noFiles (contentSource songA)
        (serveAll RosuPp.sample [(noFiles, contentSource "BeatmapID:2")] (.new 1))).1
      = (parseBeatmap RosuPp.sample noFiles (contentSource songA) (.new 1)).1 := by
  refine (parseBeatmap_transparent_up_to_id RosuPp.sample noFiles 1
    [(noFiles, contentSource "BeatmapID:2")] (contentSource songA) songA.toUTF8 rfl).2.1 ?_
  rintro id other map ⟨r, hr, hother⟩ hid hid' hparse
  rw [List.mem_singleton] at hr
  subst hr
  have hother' : "BeatmapID:2".toUTF8 = other := Except.ok.inj hother
  -- the only bytes sent before have another id
  have htwo : parseBeatmapId other = some 2 := by
    rw [← hother', parseBeatmapId_toUTF8]
    decide
  rw [parseBeatmapId_songA, Option.some.injEq] at hid
  rw [htwo, Option.some.injEq, ← hid] at hid'
  exact absurd hid' (by decide)

/-! ## Rejected requests -/

/-- What the call leaves in the cache when it parses and inserts: the map under its id, and
    everything else but the victim. -/
theorem lookup_parsed (c : BeatmapCache Map) {id : UInt32} (map : Map) (hc : c.lookup id = none)
    (id' : UInt32) :
    (((c.get id).2.insert id map).get id).2.lookup id' =
      if id' = id then some map else if c.victim id = some id' then none else c.lookup id' := by
  rw [BeatmapCache.lookup_get]
  by_cases heq : id' = id
  · rw [if_pos heq, heq, BeatmapCache.lookup_insert_self]
  · rw [if_neg heq, BeatmapCache.lookup_insert_ne _ map heq, BeatmapCache.lookup_get,
      BeatmapCache.get_of_none hc]
    rfl

/-- What passes the check is the map itself. -/
theorem checkSuspicion_ok {map map' : Map} (h : Calculator.checkSuspicion rosu map = .ok map') :
    map' = map ∧ rosu.checkSuspicion map = .ok () := by
  unfold Calculator.checkSuspicion at h
  cases hc : rosu.checkSuspicion map with
  | error why => simp only [hc, reduceCtorEq] at h
  | ok u =>
    simp only [hc, Except.ok.injEq] at h
    exact ⟨h.symm, rfl⟩

theorem checkSuspicion_error {map : Map} {err : Error}
    (h : Calculator.checkSuspicion rosu map = .error err) :
    ∃ why, err = .suspicious why ∧ rosu.checkSuspicion map = .error why := by
  unfold Calculator.checkSuspicion at h
  cases hc : rosu.checkSuspicion map with
  | error why =>
    simp only [hc, Except.error.injEq] at h
    exact ⟨why, h.symm, rfl⟩
  | ok u => simp only [hc, reduceCtorEq] at h

/-- The entries are those from before the call. -/
def SameEntries (c c' : BeatmapCache Map) : Prop := ∀ id, c'.lookup id = c.lookup id

/-- The call has parsed a suspicious map and put it under its id; of the other entries only
    the victim has gone. -/
def StoredSuspicious (bytes : ByteArray) (why : TooSuspicious) (c c' : BeatmapCache Map) : Prop :=
  ∃ id map, parseBeatmapId bytes = some id ∧ c.lookup id = none ∧
    rosu.fromBytes bytes = .ok map ∧ rosu.checkSuspicion map = .error why ∧
    ∀ id', c'.lookup id' =
      if id' = id then some map else if c.victim id = some id' then none else c.lookup id'

/-- The bytes carry an id under which nothing is cached, so a call with them parses, and inserts if
    the parse succeeds. -/
def CarriesNewId (bytes : ByteArray) (c : BeatmapCache Map) : Prop :=
  ∃ id, parseBeatmapId bytes = some id ∧ c.lookup id = none

/-- A rejection of served bytes.  If the check failed on bytes with a new id, the rejected map
    is cached now; in every other case the entries are those from before. -/
theorem serves_rejected {bytes : ByteArray} {c : BeatmapCache Map}
    {r : Except Error Map × BeatmapCache Map} (hway : Serves rosu bytes c r) {err : Error}
    (hr : (thenPure r (Calculator.checkSuspicion rosu)).1 = .error err) :
    (∀ why, err = .suspicious why → CarriesNewId bytes c →
      StoredSuspicious rosu bytes why c r.2) ∧
    ((∀ why, err = .suspicious why → ¬ CarriesNewId bytes c) → SameEntries c r.2) := by
  cases hway with
  | uncached hid =>
    -- no id: the cache is not touched, and there is no new id
    refine ⟨?_, fun _ _ => rfl⟩
    rintro why - ⟨id, hid', -⟩
    rw [hid] at hid'
    cases hid'
  | hit id map hid hc =>
    -- a resident id: the check rejects what was cached already
    refine ⟨?_, fun _ id' => BeatmapCache.lookup_get c id id'⟩
    rintro why - ⟨id', hid', hc'⟩
    rw [hid, Option.some.injEq] at hid'
    rw [← hid', hc] at hc'
    cases hc'
  | unparsable id err' hid hc hparse =>
    -- the parse failed, so it is not the check that did
    refine ⟨?_, fun _ id' => BeatmapCache.lookup_get c id id'⟩
    obtain ⟨why', rfl⟩ := parseBytes_error rosu hparse
    obtain rfl : Error.parse why' = err := Except.error.inj hr
    rintro why hwhy
    cases hwhy
  | parsed id map hid hc hparse =>
    -- the map went into the cache before the check, so the check is what failed
    obtain ⟨why, rfl, hsusp⟩ := checkSuspicion_error rosu hr
    refine ⟨?_, fun hnot => absurd ⟨id, hid, hc⟩ (hnot why rfl)⟩
    rintro why' hwhy -
    obtain rfl : why = why' := Error.suspicious.inj hwhy
    exact ⟨id, map, hid, hc, (parseBytes_eq_ok rosu).mp hparse, hsusp, lookup_parsed c map hc⟩

/-- **Rejected requests.**  What is loaded has passed the suspicion check, cached or not.  A
    request rejected for want of a source or of a parse leaves the entries as they were.  One
    rejected as suspicious stores its map, at the expense of the victim alone, if its bytes
    carry an id that is not resident; otherwise it leaves the entries as they were too. -/
theorem loadBeatmap_rejection (source : Option BeatmapSource) (c : BeatmapCache Map) :
    (∀ map, (Calculator.loadBeatmap rosu fs source c).1 = .ok map →
      rosu.checkSuspicion map = .ok ()) ∧
    (∀ err, (Calculator.loadBeatmap rosu fs source c).1 = .error err →
      (∀ why, err ≠ .suspicious why) →
      SameEntries c (Calculator.loadBeatmap rosu fs source c).2) ∧
    (∀ why, (Calculator.loadBeatmap rosu fs source c).1 = .error (.suspicious why) →
      ∃ bytes, requestBytes fs source = .ok bytes ∧
        (CarriesNewId bytes c →
          StoredSuspicious rosu bytes why c (Calculator.loadBeatmap rosu fs source c).2) ∧
        (¬ CarriesNewId bytes c →
          SameEntries c (Calculator.loadBeatmap rosu fs source c).2)) := by
  cases hb : requestBytes fs source with
  | error err =>
    rw [loadBeatmap_of_error rosu fs hb]
    refine ⟨?_, ?_, ?_⟩
    · -- `load_beatmap` answers with what the check let through
      intro map hok
      cases hok
    · -- nothing was cached, because nothing was asked
      intro _ _ _ id
      rfl
    · -- bytes that are missing are not suspicious
      intro why herr
      rcases requestBytes_error fs hb with ⟨_, rfl⟩ | ⟨why', rfl⟩
      · cases herr
      · cases herr
  | ok bytes =>
    have hway := serves_parseBeatmapCached rosu bytes c
    rw [loadBeatmap_of_ok rosu fs hb]
    refine ⟨?_, ?_, ?_⟩
    · intro map hok
      obtain ⟨map', _, hcheck⟩ := thenPure_eq_ok hok
      obtain ⟨rfl, hpass⟩ := checkSuspicion_ok rosu hcheck
      exact hpass
    · -- another error than the check's: not the way that inserts
      intro err herr hnot
      exact (serves_rejected rosu hway herr).2 fun why hwhy => absurd hwhy (hnot why)
    · -- the check's own error: stored if the id was new
      intro why herr
      obtain ⟨hstored, hsame⟩ := serves_rejected rosu hway herr
      exact ⟨bytes, rfl, hstored why rfl, fun hold => hsame fun _ _ => hold⟩

/-- A library that finds the beatmaps of one id suspicious. -/
def RosuPp.suspecting (id : UInt32) :
    RosuPp ByteArray UInt32 (List DifficultyAttributes) (List PerformanceAttributes) :=
  { RosuPp.sample with
    checkSuspicion := fun map =>
      if parseBeatmapId map = some id then .error ⟨"Density"⟩ else .ok () }

/-- Another song, with an id of its own. -/
def songC : String := "osu file format v14\n\n[Metadata]\nTitle:C\nBeatmapID:2\n"

theorem parseBeatmapId_songC : parseBeatmapId songC.toUTF8 = some 2 := by
  rw [parseBeatmapId_toUTF8]
  decide

/-- In a cache of capacity one, a rejected beatmap takes the place of the one cached before. -/
theorem loadBeatmap_rejected_evicts :
    let rosu := RosuPp.suspecting 2
    let c := serveAll rosu [(noFiles, contentSource songA)] (.new 1)
    (Calculator.loadBeatmap rosu noFiles (some (contentSource songC)) c).1
        = .error (.suspicious ⟨"Density"⟩) ∧
      c.lookup 1 = some songA.toUTF8 ∧
      (Calculator.loadBeatmap rosu noFiles (some (contentSource songC)) c).2.lookup 1 = none ∧
      (Calculator.loadBeatmap rosu noFiles (some (contentSource songC)) c).2.lookup 2
        = some songC.toUTF8 := by
  intro rosu c
  have hc : c = (((BeatmapCache.new 1).get 1).2.insert 1 songA.toUTF8 |>.get 1).2 := by
    show (parseBeatmapCached rosu songA.toUTF8 (.new 1)).2 = _
    rw [parseBeatmapCached_parsed _ parseBeatmapId_songA (BeatmapCache.lookup_new 1 1) rfl]
  have hone : c.lookup 1 = some songA.toUTF8 := by rw [hc]; rfl
  have htwo : c.lookup 2 = none := by rw [hc]; rfl
  have hvictim : c.victim 2 = some 1 := by rw [hc]; rfl
  -- the second song is parsed, stored, and only then refused
  have hload : Calculator.loadBeatmap rosu noFiles (some (contentSource songC)) c
      = (.error (.suspicious ⟨"Density"⟩), (((c.get 2).2.insert 2 songC.toUTF8).get 2).2) := by
    show thenPure (parseBeatmapCached rosu songC.toUTF8 c) (Calculator.checkSuspicion rosu) = _
    rw [parseBeatmapCached_parsed _ parseBeatmapId_songC htwo rfl]
    have hsusp : rosu.checkSuspicion songC.toUTF8 = .error ⟨"Density"⟩ := by
      simp only [rosu, RosuPp.suspecting, parseBeatmapId_songC, if_true]
    simp only [thenPure, Except.bind, Calculator.checkSuspicion, hsusp]
  rw [hload]
  refine ⟨rfl, hone, ?_, ?_⟩
  · -- the first song was the only one to evict
    rw [lookup_parsed c _ htwo, if_neg (by decide), if_pos hvictim]
  · rw [lookup_parsed c _ htwo, if_pos rfl]

/-! ## The counters -/

/-- `/health` shows the configured capacity, whatever has been served. -/
theorem serveAll_capacity (run : List (Files × BeatmapSource)) (size : Nat) :
    (serveAll rosu run (.new size)).stats.capacity = max size 1 := by
  refine serveAll_invariant rosu (I := fun c => c.inner.cap = max size 1) ?_ rfl
  intro r hr c hc
  cases hb : sourceBytes r.1 r.2 with
  | error err =>
    rw [parseBeatmap_of_error rosu r.1 hb]
    exact hc
  | ok bytes =>
    rw [parseBeatmap_of_ok rosu r.1 hb, ← hc]
    exact serves_cap rosu (serves_parseBeatmapCached rosu bytes c)

/-- The call is answered from an entry that is cached already. -/
def servedFromCache (source : BeatmapSource) (c : BeatmapCache Map) : Bool :=
  match sourceBytes fs source with
  | .error _ => false
  | .ok bytes => ((parseBeatmapId bytes).bind c.lookup).isSome

/-- The call runs `Beatmap::from_bytes`. -/
def runsFromBytes (source : BeatmapSource) (c : BeatmapCache Map) : Bool :=
  match sourceBytes fs source with
  | .error _ => false
  | .ok bytes => ((parseBeatmapId bytes).bind c.lookup).isNone

/-- How many calls of a run `p` holds of, each in the cache it finds. -/
def callsWhere (p : Files → BeatmapSource → BeatmapCache Map → Bool) :
    List (Files × BeatmapSource) → BeatmapCache Map → Nat
  | [], _ => 0
  | (fs, source) :: rest, c =>
    (p fs source c).toNat + callsWhere p rest (parseBeatmap rosu fs source c).2

/-- The beatmap of the request parses and carries an id. -/
def Cacheable (r : Files × BeatmapSource) : Prop :=
  ∃ bytes id map, sourceBytes r.1 r.2 = .ok bytes ∧ parseBeatmapId bytes = some id ∧
    rosu.fromBytes bytes = .ok map

/-- A call with a cacheable beatmap counts one hit in any case, and a miss if it parses. -/
theorem parseBeatmap_counts {r : Files × BeatmapSource} (hr : Cacheable rosu r)
    (c : BeatmapCache Map) :
    (parseBeatmap rosu r.1 r.2 c).2.hits = c.hits + 1 ∧
    (parseBeatmap rosu r.1 r.2 c).2.misses
      = c.misses + UInt64.ofNat (runsFromBytes r.1 r.2 c).toNat ∧
    (servedFromCache r.1 r.2 c).toNat + (runsFromBytes r.1 r.2 c).toNat = 1 := by
  obtain ⟨bytes, id, map, hb, hid, hparse⟩ := hr
  rw [← parseBytes_eq_ok] at hparse
  rw [parseBeatmap_of_ok rosu r.1 hb]
  cases hc : c.lookup id with
  | some map' =>
    -- served from the cache: one read, one hit
    rw [parseBeatmapCached_hit rosu hid hc, BeatmapCache.get_of_some hc]
    simp [servedFromCache, runsFromBytes, hb, hid, hc]
  | none =>
    -- parsed: a read that misses, and after the insertion one that hits
    rw [parseBeatmapCached_parsed rosu hid hc hparse, BeatmapCache.get_of_none hc,
      BeatmapCache.get_of_some (BeatmapCache.lookup_insert_self _ _ _)]
    simp [BeatmapCache.insert, servedFromCache, runsFromBytes, hb, hid, hc]

/-- The counters after a run of such calls, from any cache. -/
theorem serveAll_counts {run : List (Files × BeatmapSource)}
    (hrun : ∀ r ∈ run, Cacheable rosu r) (c : BeatmapCache Map) :
    (serveAll rosu run c).hits = c.hits + UInt64.ofNat run.length ∧
    (serveAll rosu run c).misses
      = c.misses + UInt64.ofNat (callsWhere rosu runsFromBytes run c) ∧
    callsWhere rosu servedFromCache run c + callsWhere rosu runsFromBytes run c = run.length := by
  induction run generalizing c with
  | nil =>
    refine ⟨?_, ?_, rfl⟩
    · show c.hits = c.hits + 0
      rw [UInt64.add_zero]
    · show c.misses = c.misses + 0
      rw [UInt64.add_zero]
  | cons r rest ih =>
    obtain ⟨hhits, hmisses, hone⟩ := parseBeatmap_counts rosu (hrun r List.mem_cons_self) c
    obtain ⟨ihhits, ihmisses, ihsum⟩ :=
      ih (fun r' hr' => hrun r' (List.mem_cons_of_mem _ hr')) (parseBeatmap rosu r.1 r.2 c).2
    refine ⟨?_, ?_, ?_⟩
    · -- one hit for the first call and, by induction, one for each of the others
      show (serveAll rosu rest (parseBeatmap rosu r.1 r.2 c).2).hits = _
      rw [ihhits, hhits, List.length_cons, Nat.add_comm rest.length 1, UInt64.ofNat_add,
        UInt64.add_assoc]
      rfl
    · -- a miss for the first call if it parsed
      show (serveAll rosu rest (parseBeatmap rosu r.1 r.2 c).2).misses = _
      rw [ihmisses, hmisses, callsWhere, UInt64.ofNat_add, UInt64.add_assoc]
    · -- each call either parsed or was served
      rw [callsWhere, callsWhere, List.length_cons]
      omega

/-- The counters after a run read as what happened in it: a hit for each call served without
    parsing, a miss for each call that parsed, and nothing else. -/
def CountsRequests (size : Nat) (run : List (Files × BeatmapSource)) : Prop :=
  let stats := (serveAll rosu run (.new size)).stats
  stats.hits.toNat = callsWhere rosu servedFromCache run (.new size) ∧
    stats.misses.toNat = callsWhere rosu runsFromBytes run (.new size) ∧
    stats.hits.toNat + stats.misses.toNat = run.length

/-- **What `/health` counts.**  The size never exceeds the capacity, but the counters read as
    what happened in no run but the empty one: the first call of any other run parses, and
    counts as a hit too. -/
theorem stats_count_requests_iff (size : Nat) (run : List (Files × BeatmapSource))
    (hrun : ∀ r ∈ run, Cacheable rosu r) :
    (serveAll rosu run (.new size)).stats.size ≤ (serveAll rosu run (.new size)).stats.capacity ∧
    (CountsRequests rosu size run ↔ run = []) := by
  refine ⟨BeatmapCache.stats_size_le _, ?_, ?_⟩
  · rintro ⟨hhits, hmisses, hsum⟩
    obtain ⟨hh, hm, hcalls⟩ := serveAll_counts rosu hrun (.new size)
    -- the hits are the number of calls, so nothing is left over for the misses
    have hhits' : (serveAll rosu run (.new size)).stats.hits.toNat = run.length % 2 ^ 64 := by
      show (serveAll rosu run (.new size)).hits.toNat = _
      rw [hh]
      show (0 + UInt64.ofNat run.length).toNat = _
      rw [UInt64.zero_add, UInt64.toNat_ofNat']
    have hlt : callsWhere rosu runsFromBytes run (.new size) < 2 ^ 64 := by
      rw [← hmisses]
      exact UInt64.toNat_lt _
    cases run with
    | nil => rfl
    | cons r rest =>
      -- but there is one: nothing is cached when the first call comes
      have hfirst : callsWhere rosu runsFromBytes (r :: rest) (.new size)
          = 1 + callsWhere rosu runsFromBytes rest (parseBeatmap rosu r.1 r.2 (.new size)).2 := by
        obtain ⟨bytes, id, map, hb, hid, hparse⟩ := hrun r List.mem_cons_self
        rw [callsWhere]
        simp [runsFromBytes, hb, hid]
      omega
  · rintro rfl
    exact ⟨rfl, rfl, rfl⟩

theorem cacheable_songA : Cacheable RosuPp.sample (noFiles, contentSource songA) :=
  ⟨songA.toUTF8, 1, songA.toUTF8, rfl, parseBeatmapId_songA, rfl⟩

/-- One call, which parses: no call has been served from the cache, and one hit is shown. -/
theorem stats_hits_of_one_parse :
    (serveAll RosuPp.sample [(noFiles, contentSource songA)] (.new 1)).stats
        = { size := 1, capacity := 1, hits := 1, misses := 1 } ∧
      callsWhere RosuPp.sample servedFromCache [(noFiles, contentSource songA)] (.new 1) = 0 ∧
      ¬ CountsRequests RosuPp.sample 1 [(noFiles, contentSource songA)] := by
  have hrun : serveAll RosuPp.sample [(noFiles, contentSource songA)] (.new 1)
      = (((BeatmapCache.new 1).get 1).2.insert 1 songA.toUTF8 |>.get 1).2 := by
    show (parseBeatmapCached RosuPp.sample songA.toUTF8 (.new 1)).2 = _
    rw [parseBeatmapCached_parsed _ parseBeatmapId_songA (BeatmapCache.lookup_new 1 1) rfl]
  have hserved :
      callsWhere RosuPp.sample servedFromCache [(noFiles, contentSource songA)] (.new 1) = 0 := by
    have hcontent : sourceBytes noFiles (contentSource songA) = .ok songA.toUTF8 := rfl
    simp only [callsWhere, servedFromCache, hcontent, parseBeatmapId_songA, Option.bind_some,
      BeatmapCache.lookup_new, Option.isSome_none, Bool.toNat_false]
  refine ⟨?_, hserved, ?_⟩
  · rw [hrun]
    rfl
  · -- one hit is shown where no call was served from the cache
    rintro ⟨hhits, _⟩
    rw [hserved, hrun] at hhits
    exact absurd hhits (by decide)

theorem cacheable_songC : Cacheable RosuPp.sample (noFiles, contentSource songC) :=
  ⟨songC.toUTF8, 2, songC.toUTF8, rfl, parseBeatmapId_songC, rfl⟩

/-- Four calls on a cache of capacity one: a parse, a hit, another song that evicts the first,
    and the first again. -/
def evictingRun : List (Files × BeatmapSource) :=
  [(noFiles, contentSource songA), (noFiles, contentSource songA),
    (noFiles, contentSource songC), (noFiles, contentSource songA)]

/-- A request with an id is served from the cache if the id is resident, and parses if not. -/
theorem calls_of_id {source : BeatmapSource} {bytes : ByteArray} {id : UInt32}
    (hb : sourceBytes noFiles source = .ok bytes) (hid : parseBeatmapId bytes = some id)
    (c : BeatmapCache ByteArray) :
    servedFromCache noFiles source c = (c.lookup id).isSome ∧
      runsFromBytes noFiles source c = (c.lookup id).isNone := by
  simp only [servedFromCache, runsFromBytes, hb, hid, Option.bind_some, and_self]

/-- One of them is served from the cache and three are parsed. -/
theorem calls_evictingRun :
    callsWhere RosuPp.sample servedFromCache evictingRun (.new 1) = 1 ∧
      callsWhere RosuPp.sample runsFromBytes evictingRun (.new 1) = 3 := by
  have hA : sourceBytes noFiles (contentSource songA) = .ok songA.toUTF8 := rfl
  have hC : sourceBytes noFiles (contentSource songC) = .ok songC.toUTF8 := rfl
  have h1 : (parseBeatmap RosuPp.sample noFiles (contentSource songA) (.new 1)).2
      = (((BeatmapCache.new 1).get 1).2.insert 1 songA.toUTF8 |>.get 1).2 := by
    rw [parseBeatmap_of_ok _ _ hA,
      parseBeatmapCached_parsed _ parseBeatmapId_songA (BeatmapCache.lookup_new 1 1) rfl]
  generalize hc1 : (((BeatmapCache.new 1).get 1).2.insert 1 songA.toUTF8 |>.get 1).2 = c1 at h1
  have hres1 : c1.lookup 1 = some songA.toUTF8 := by rw [← hc1]; rfl
  have h2 : (parseBeatmap RosuPp.sample noFiles (contentSource songA) c1).2 = (c1.get 1).2 := by
    rw [parseBeatmap_of_ok _ _ hA, parseBeatmapCached_hit _ parseBeatmapId_songA hres1]
  have habs2 : (c1.get 1).2.lookup 2 = none := by rw [← hc1]; rfl
  have h3 : (parseBeatmap RosuPp.sample noFiles (contentSource songC) (c1.get 1).2).2
      = ((((c1.get 1).2.get 2).2.insert 2 songC.toUTF8).get 2).2 := by
    rw [parseBeatmap_of_ok _ _ hC, parseBeatmapCached_parsed _ parseBeatmapId_songC habs2 rfl]
  have habs3 : ((((c1.get 1).2.get 2).2.insert 2 songC.toUTF8).get 2).2.lookup 1 = none := by
    rw [← hc1]; rfl
  have hcallA := calls_of_id hA parseBeatmapId_songA
  have hcallC := calls_of_id hC parseBeatmapId_songC
  constructor
  · simp only [evictingRun, callsWhere, h1, h2, h3, (hcallA _).1, (hcallC _).1, hres1, habs2,
      habs3, BeatmapCache.lookup_new]
    rfl
  · simp only [evictingRun, callsWhere, h1, h2, h3, (hcallA _).2, (hcallC _).2, hres1, habs2,
      habs3, BeatmapCache.lookup_new]
    rfl

/-- The theorem at that run, with its one hit and its eviction: `CountsRequests` asks for one hit
    and three misses there. -/
theorem stats_count_evictingRun :
    callsWhere RosuPp.sample servedFromCache evictingRun (.new 1) = 1 ∧
      callsWhere RosuPp.sample runsFromBytes evictingRun (.new 1) = 3 ∧
      (serveAll RosuPp.sample evictingRun (.new 1)).stats.size
        ≤ (serveAll RosuPp.sample evictingRun (.new 1)).stats.capacity ∧
      ¬ CountsRequests RosuPp.sample 1 evictingRun := by
  have hrun : ∀ r ∈ evictingRun, Cacheable RosuPp.sample r := by
    intro r hr
    rcases List.mem_cons.mp hr with rfl | hr
    · -- the first song, twice
      exact cacheable_songA
    rcases List.mem_cons.mp hr with rfl | hr
    · exact cacheable_songA
    rcases List.mem_cons.mp hr with rfl | hr
    · -- the other one
      exact cacheable_songC
    · rw [List.mem_singleton.mp hr]
      exact cacheable_songA
  obtain ⟨hsize, hcounts⟩ := stats_count_requests_iff RosuPp.sample 1 evictingRun hrun
  exact ⟨calls_evictingRun.1, calls_evictingRun.2, hsize, fun h => nomatch hcounts.mp h⟩

end PpService
