/-
  `src/service/calculator.rs`: the endpoints.

  Every endpoint loads its beatmap through the cache, converts it to the requested mode, and
  computes from the converted map and a `Difficulty` (or mods) built from the settings of the
  request.  `batch` is not here: it runs `performance` in parallel and is modelled in
  `PpService.Batch`.

  A request is answered in two parts: what happens on the cache, and what is computed from the
  map that comes out of it.  `thenPure` puts them together, and says that the second part leaves
  the cache alone.  The two gradual endpoints answer an iterator instead of a message;
  what its results become on the wire is modelled in `PpService.Stream`.
-/
import PpService.Graph

namespace PpService

open Proto (BeatmapSource DifficultySettings DifficultyRequest PerformanceRequest StrainsRequest
  StrainGraphRequest BeatmapInfoRequest GradualDifficultyRequest GradualPerformanceRequest
  DifficultyResponse PerformanceResponse StrainsResponse StrainGraphResponse BeatmapInfoResponse
  GradualDifficultyResponse GradualPerformanceResponse)

variable {Map Mods GD GP : Type} (rosu : RosuPp Map Mods GD GP) (plot : Plotting) (fs : Files)

/-- `result?` followed by work that does not touch the cache. -/
def thenPure {α β : Type} (r : Except Error α × BeatmapCache Map) (f : α → Except Error β) :
    Except Error β × BeatmapCache Map :=
  (r.1.bind f, r.2)

/-- Two steps after loading are one step: the cache is left by the loading alone. -/
theorem thenPure_thenPure {α β γ : Type} (r : Except Error α × BeatmapCache Map)
    (f : α → Except Error β) (g : β → Except Error γ) :
    thenPure (thenPure r f) g = thenPure r fun a => (f a).bind g := by
  obtain ⟨_ | a, c⟩ := r
  · -- the first step failed, and neither of the others runs
    rfl
  · -- it answered, and both of the others do
    rfl

/-- An answer comes from an answer of the loading. -/
theorem thenPure_eq_ok {α β : Type} {r : Except Error α × BeatmapCache Map}
    {f : α → Except Error β} {b : β} (h : (thenPure r f).1 = .ok b) :
    ∃ a, r.1 = .ok a ∧ f a = .ok b := by
  obtain ⟨_ | a, c⟩ := r
  · -- a failed load answers nothing
    cases h
  · exact ⟨a, rfl, h⟩

namespace Calculator

/-! ## Loading and converting -/

/-- `map.check_suspicion().map_err(Error::Suspicious)?; Ok(map)`. -/
def checkSuspicion (map : Map) : Except Error Map :=
  match rosu.checkSuspicion map with
  | .error why => .error (.suspicious why)
  | .ok () => .ok map

/-- `load_beatmap`: suspicion is checked on every answer, a cached one too, so that a rejected map
    stays in the cache and is rejected again from there. -/
def loadBeatmap (source : Option BeatmapSource) (c : BeatmapCache Map) :
    Except Error Map × BeatmapCache Map :=
  match source with
  | none => (.error .missingBeatmap, c)
  | some source => thenPure (parseBeatmap rosu fs source c) (checkSuspicion rosu)

/-- The `let mods = ..` of `load_and_convert`: the mods `convert_mut` is given.  Only the flags are
    looked at, unlike in the three cascades below. -/
def conversionMods (settings : Option DifficultySettings) : Mods :=
  match settings.bind (·.mods) with
  | none => rosu.modsDefault
  | some bits => rosu.modsOfBits bits

/-- `load_and_convert` after `load_beatmap`. -/
def convertLoaded (mode : Proto.GameMode) (settings : Option DifficultySettings) (map : Map) :
    Except Error Map :=
  match protoToMode mode with
  -- no mode was asked for
  | none => .ok map
  | some target =>
    -- the clone that `convert_mut` works on is the map itself here: nothing is shared
    if (rosu.data map).mode = target then .ok map
    else (rosu.convertMut map target (conversionMods rosu settings)).mapError fun _ => .conversion

/-- `load_and_convert`: the cache holds the map as it was parsed, whatever it is converted to. -/
def loadAndConvert (source : Option BeatmapSource) (mode : Proto.GameMode)
    (settings : Option DifficultySettings) (c : BeatmapCache Map) :
    Except Error Map × BeatmapCache Map :=
  thenPure (loadBeatmap rosu fs source c) (convertLoaded rosu mode settings)

/-- `build_difficulty`. -/
def buildDifficulty (settings : Option DifficultySettings) : Difficulty Mods :=
  match settings with
  | none => Difficulty.new rosu
  | some s => applyDifficultySettings rosu (Difficulty.new rosu) s

/-! ## The endpoints with one answer -/

/-- `difficulty`: the circle size is reported from the settings (`effectiveCs`), everything else
    comes from the library. -/
def difficulty (req : DifficultyRequest) (c : BeatmapCache Map) :
    Except Error DifficultyResponse × BeatmapCache Map :=
  thenPure (loadAndConvert rosu fs req.beatmap (.ofField req.mode) req.settings c) fun map =>
    let cs := effectiveCs (rosu.data map).cs req.settings
    let difficulty := buildDifficulty rosu req.settings
    .ok (difficultyToProto (rosu.calculate difficulty map) cs)

/-- The settings `performance` installs on the `Performance` builder. -/
def applyPerformanceSettings (perf : Performance Mods) (s : DifficultySettings) :
    Performance Mods :=
  let perf := match s.modsStr with
    | some modsStr =>
      match rosu.parseMods modsStr with
      | some gameMods => { perf with mods := gameMods }
      | none => installed s.mods (fun m perf => { perf with mods := rosu.modsOfBits m }) perf
    | none => installed s.mods (fun m perf => { perf with mods := rosu.modsOfBits m }) perf
  let perf := installed s.clockRate (fun rate perf => { perf with clockRate := some rate }) perf
  installed s.lazer (fun lazer perf => { perf with lazer := some lazer }) perf

/-- The `Performance` that `performance` hands to the library for a loaded map. -/
def buildPerformance (req : PerformanceRequest) (map : Map) : Performance Mods :=
  let difficulty := buildDifficulty rosu req.difficultySettings
  let diffAttrs := rosu.calculate difficulty map
  -- a builder on attributes knows none of the settings they were computed with
  let perf := Performance.new rosu diffAttrs
  let perf := installed req.difficultySettings
    (fun s perf => applyPerformanceSettings rosu perf s) perf
  installed req.score (fun score perf => applyScoreParams perf score) perf

/-- `performance`: the difficulty is computed first, and the mods, clock rate and `lazer` of the
    settings are then installed a second time on the `Performance` builder. -/
def performance (req : PerformanceRequest) (c : BeatmapCache Map) :
    Except Error PerformanceResponse × BeatmapCache Map :=
  thenPure (loadAndConvert rosu fs req.beatmap (.ofField req.mode) req.difficultySettings c)
    fun map =>
      let cs := effectiveCs (rosu.data map).cs req.difficultySettings
      .ok (performanceToProto (rosu.calculatePerformance (buildPerformance rosu req map)) cs)

/-- `strains`. -/
def strains (req : StrainsRequest) (c : BeatmapCache Map) :
    Except Error StrainsResponse × BeatmapCache Map :=
  thenPure (loadAndConvert rosu fs req.beatmap (.ofField req.mode) req.settings c) fun map =>
    let difficulty := buildDifficulty rosu req.settings
    .ok (strainsToProto (rosu.strains difficulty map))

/-- The `let mods: GameMods = ..` of `strain_graph`. -/
def strainGraphMods (settings : Option DifficultySettings) : Mods :=
  match settings with
  | some settings =>
    match settings.modsStr with
    | some modsStr =>
      match rosu.parseMods modsStr with
      | some gameMods => gameMods
      | none => rosu.modsOfBits (settings.mods.getD 0)
    | none => rosu.modsOfBits (settings.mods.getD 0)
  | none => rosu.modsDefault

/-- `strain_graph`: only the mods of the settings reach the graph. -/
def strainGraph (req : StrainGraphRequest) (c : BeatmapCache Map) :
    Except Error StrainGraphResponse × BeatmapCache Map :=
  thenPure (loadAndConvert rosu fs req.beatmap (.ofField req.mode) req.settings c) fun map =>
    let mods := strainGraphMods rosu req.settings
    (renderStrainGraph rosu plot map mods req.width req.height req.background).map fun pngData =>
      { pngData }

/-- `beatmap_info`: no mode and no settings, so nothing is converted. -/
def beatmapInfo (req : BeatmapInfoRequest) (c : BeatmapCache Map) :
    Except Error BeatmapInfoResponse × BeatmapCache Map :=
  thenPure (loadBeatmap rosu fs req.beatmap c) fun map => .ok (beatmapToProto rosu map)

end Calculator

/-! ## The gradual endpoints -/

/-- `GradualDifficultyIter`. -/
structure GradualDifficultyIter (GD : Type) where
  inner : GD
  index : UInt32
  cs : F64

/-- `GradualDifficultyIter::new`. -/
def GradualDifficultyIter.new (inner : GD) (cs : F64) : GradualDifficultyIter GD :=
  { inner, index := 0, cs }

/-- `Iterator::next`. -/
def GradualDifficultyIter.next (it : GradualDifficultyIter GD) :
    Option GradualDifficultyResponse × GradualDifficultyIter GD :=
  match rosu.nextDifficulty it.inner with
  | (none, inner) => (none, { it with inner })
  | (some attrs, inner) =>
    let resp := difficultyAttrsToGradualProto it.index attrs it.cs
    (some resp, { it with inner, index := it.index + 1 })

/-- `GradualPerformanceCalc`. -/
structure GradualPerformanceCalc (GP : Type) where
  inner : GP
  state : ScoreState
  index : UInt32

/-- `GradualPerformanceCalc::new`: the request's score is where the counting starts. -/
def GradualPerformanceCalc.new (inner : GP) (req : GradualPerformanceRequest) :
    GradualPerformanceCalc GP :=
  let state : ScoreState := {}
  let state := installed req.score (fun score state => applyScoreParamsToState state score) state
  { inner, state, index := 0 }

/-- The score state of the next call: one more 300 and one more combo. -/
def GradualPerformanceCalc.nextState (pp : GradualPerformanceCalc GP) : ScoreState :=
  { pp.state with n300 := pp.state.n300 + 1, maxCombo := pp.state.maxCombo + 1 }

/-- `GradualPerformanceCalc::next`: the state is moved on before the library is asked, whatever it
    answers. -/
def GradualPerformanceCalc.next (pp : GradualPerformanceCalc GP) :
    Option GradualPerformanceResponse × GradualPerformanceCalc GP :=
  let state := pp.nextState
  match rosu.nextPerformance pp.inner state with
  -- the state has moved on, the index has not
  | (none, inner) => (none, { pp with inner, state })
  | (some attrs, inner) =>
    let resp := { objectIndex := pp.index, pp := attrs.pp, stars := attrs.stars }
    (some resp, { inner, state, index := pp.index + 1 })

namespace Calculator

/-- `gradual_difficulty`: what the stream is made from; nothing of it is computed yet. -/
def gradualDifficulty (req : GradualDifficultyRequest) (c : BeatmapCache Map) :
    Except Error (GradualDifficultyIter GD) × BeatmapCache Map :=
  thenPure (loadAndConvert rosu fs req.beatmap (.ofField req.mode) req.settings c) fun map =>
    let cs := effectiveCs (rosu.data map).cs req.settings
    let difficulty := buildDifficulty rosu req.settings
    .ok (.new (rosu.gradualDifficulty difficulty map) cs)

/-- `gradual_performance`; its items report no circle size. -/
def gradualPerformance (req : GradualPerformanceRequest) (c : BeatmapCache Map) :
    Except Error (GradualPerformanceCalc GP) × BeatmapCache Map :=
  thenPure (loadAndConvert rosu fs req.beatmap (.ofField req.mode) req.difficultySettings c)
    fun map =>
      let difficulty := buildDifficulty rosu req.difficultySettings
      let gradual := rosu.gradualPerformance difficulty map
      .ok (.new gradual req)

end Calculator

end PpService
