/-
  `src/service/convert.rs`: from a request to a parsed beatmap (`parse_beatmap`, through the
  cache), from the settings of a request to the library's builders, and from the library's
  results back to messages.

  A function that uses the cache takes it and answers it: `c ↦ (result, c')`.  An `Err` keeps
  the changes made to the cache before it, as in the source.

  A line `if let Some(v) = ..` is one function with parameters (`installed`), so that each line
  of the source is one line here, in the same order; what a whole cascade of them comes to is
  one equation for all of its fields (`applyScoreParams_eq`, `applyScoreParamsToState_eq`).
-/
import PpService.Cache

namespace PpService

open Proto (Source BeatmapSource DifficultySettings ScoreParams)

variable {Map Mods GD GP : Type} (rosu : RosuPp Map Mods GD GP) (fs : Files)

/-! ## Parsing a beatmap through the cache -/

/-- `Beatmap::from_bytes(bytes).map_err(Error::from)`. -/
def parseBytes (bytes : ByteArray) : Except Error Map :=
  (rosu.fromBytes bytes).mapError Error.parse

/-- `parse_beatmap_cached`: the bytes' own `BeatmapID:` is the key.  The three looks at the cache
    (`get`, `insert`, `get`) are one call after the other here; what other callers may do between
    them is modelled in `PpService.Interleaving`. -/
def parseBeatmapCached (bytes : ByteArray) (c : BeatmapCache Map) :
    Except Error Map × BeatmapCache Map :=
  match parseBeatmapId bytes with
  | some id =>
    match c.get id with
    -- a hit answers the resident map and never looks at the rest of the bytes
    | (some map, c₁) => (.ok map, c₁)
    | (none, c₁) =>
      match parseBytes rosu bytes with
      -- a parse that fails leaves the cache as the first look did
      | .error err => (.error err, c₁)
      | .ok map =>
        -- `cache::insert` takes the map, so it is read back from the cache
        match (c₁.insert id map).get id with
        | (some map, c₂) => (.ok map, c₂)
        | (none, c₂) => (.error .missingBeatmap, c₂)
  -- without an id the bytes are parsed for every request and never stored
  | none => (parseBytes rosu bytes, c)

/-- `parse_beatmap`: a path is read first and then treated as its content. -/
def parseBeatmap (source : BeatmapSource) (c : BeatmapCache Map) :
    Except Error Map × BeatmapCache Map :=
  match source.source with
  | some (.content bytes) => parseBeatmapCached rosu bytes c
  | some (.path path) =>
    match fs path with
    -- a file that cannot be read is reported as a parse error
    | .error err => (.error (.parse err), c)
    | .ok bytes => parseBeatmapCached rosu bytes c
  | none => (.error .missingBeatmap, c)

/-! ## Modes and priorities -/

/-- `proto_to_mode`: `UNSPECIFIED` asks for no conversion. -/
def protoToMode : Proto.GameMode → Option GameMode
  | .unspecified => none
  | .osu => some .osu
  | .taiko => some .taiko
  | .catch_ => some .catch_
  | .mania => some .mania

/-- `proto_to_priority`: `FASTEST` is passed on as the best case. -/
def protoToPriority : Proto.HitResultPriority → HitResultPriority
  | .bestCase | .fastest => .bestCase
  | .worstCase => .worstCase

/-- `mode_to_proto`. -/
def modeToProto : GameMode → Proto.GameMode
  | .osu => .osu
  | .taiko => .taiko
  | .catch_ => .catch_
  | .mania => .mania

/-! ## Settings -/

/-- `if let Some(v) = value { d = install(v, d) }`. -/
def installed {α δ : Type} (value : Option α) (install : α → δ → δ) (d : δ) : δ :=
  match value with
  | some v => install v d
  | none => d

/-- Installing a value in a field: the value if there is one, otherwise what the field had. -/
theorem installed_field {α β δ : Type} (set : Option β → δ → δ) (get : δ → Option β) (f : α → β)
    (hkeep : ∀ d, set (get d) d = d) (v : Option α) (d : δ) :
    installed v (fun a d => set (some (f a)) d) d = set ((v.map f).or (get d)) d := by
  cases v with
  | none => exact (hkeep d).symm
  | some a => rfl

/-- The same for a field that always holds a value. -/
theorem installed_value {β δ : Type} (set : β → δ → δ) (get : δ → β)
    (hkeep : ∀ d, set (get d) d = d) (v : Option β) (d : δ) :
    installed v set d = set (v.getD (get d)) d := by
  cases v with
  | none => exact (hkeep d).symm
  | some b => rfl

/-- `apply_difficulty_settings`: every field that is present goes to the builder's field of the
    same name, the mods from `mods_str` first. -/
def applyDifficultySettings (d : Difficulty Mods) (s : DifficultySettings) : Difficulty Mods :=
  let d := match s.modsStr with
    | some modsStr =>
      -- acronyms come before flags: they can name lazer mods that have no bit
      match rosu.parseMods modsStr with
      | some gameMods => { d with mods := gameMods }
      -- an acronym text that does not parse falls back to the flags, if there are any
      | none => installed s.mods (fun v d => { d with mods := rosu.modsOfBits v }) d
    | none => installed s.mods (fun v d => { d with mods := rosu.modsOfBits v }) d
  let d := installed s.clockRate (fun v d => { d with clockRate := some v }) d
  -- the four attributes carry a flag: whether the value already has the mods in it
  let d := installed s.ar (fun v d => { d with ar := some (v, s.arWithMods.getD false) }) d
  let d := installed s.cs (fun v d => { d with cs := some (v, s.csWithMods.getD false) }) d
  let d := installed s.hp (fun v d => { d with hp := some (v, s.hpWithMods.getD false) }) d
  let d := installed s.od (fun v d => { d with od := some (v, s.odWithMods.getD false) }) d
  let d := installed s.passedObjects (fun v d => { d with passedObjects := some v }) d
  let d := installed s.hardrockOffsets (fun v d => { d with hardrockOffsets := some v }) d
  installed s.lazer (fun v d => { d with lazer := some v }) d

/-- The `hitresult_priority` of `apply_score_params`: a number equal to `BestCase` installs
    nothing. -/
def scorePriority (s : ScoreParams) : Option HitResultPriority :=
  match s.hitresultPriority with
  | some v =>
    if v ≠ Proto.HitResultPriority.bestCase.toI32 then
      some (protoToPriority (Proto.HitResultPriority.ofField s.hitresultPriority))
    else none
  | none => none

/-- `apply_score_params`, one `if let` a line. -/
def applyScoreParams (p : Performance Mods) (s : ScoreParams) : Performance Mods :=
  let p := installed s.combo (fun v p => { p with combo := some v }) p
  let p := installed s.accuracy (fun v p => { p with accuracy := some v }) p
  let p := installed s.misses (fun v p => { p with misses := some v }) p
  let p := installed s.n300 (fun v p => { p with n300 := some v }) p
  let p := installed s.n100 (fun v p => { p with n100 := some v }) p
  let p := installed s.n50 (fun v p => { p with n50 := some v }) p
  let p := installed s.nGeki (fun v p => { p with nGeki := some v }) p
  let p := installed s.nKatu (fun v p => { p with nKatu := some v }) p
  let p := installed s.largeTickHits (fun v p => { p with largeTickHits := some v }) p
  let p := installed s.smallTickHits (fun v p => { p with smallTickHits := some v }) p
  let p := installed s.sliderEndHits (fun v p => { p with sliderEndHits := some v }) p
  installed (scorePriority s) (fun v p => { p with hitresultPriority := v }) p

/-- Every score parameter that is present is forwarded, and nothing else changes. -/
theorem applyScoreParams_eq (p : Performance Mods) (s : ScoreParams) :
    applyScoreParams p s =
      { p with
        combo := s.combo.or p.combo
        accuracy := s.accuracy.or p.accuracy
        misses := s.misses.or p.misses
        n300 := s.n300.or p.n300
        n100 := s.n100.or p.n100
        n50 := s.n50.or p.n50
        nGeki := s.nGeki.or p.nGeki
        nKatu := s.nKatu.or p.nKatu
        largeTickHits := s.largeTickHits.or p.largeTickHits
        smallTickHits := s.smallTickHits.or p.smallTickHits
        sliderEndHits := s.sliderEndHits.or p.sliderEndHits
        hitresultPriority := (scorePriority s).getD p.hitresultPriority } := by
  -- each line of the cascade as "the new value, or else the old one" (`installed_field`)
  have hcombo := installed_field (fun v (p : Performance Mods) => { p with combo := v })
    (·.combo) (fun v => v) fun _ => rfl
  have haccuracy := installed_field (fun v (p : Performance Mods) => { p with accuracy := v })
    (·.accuracy) (fun v => v) fun _ => rfl
  have hmisses := installed_field (fun v (p : Performance Mods) => { p with misses := v })
    (·.misses) (fun v => v) fun _ => rfl
  have hn300 := installed_field (fun v (p : Performance Mods) => { p with n300 := v })
    (·.n300) (fun v => v) fun _ => rfl
  have hn100 := installed_field (fun v (p : Performance Mods) => { p with n100 := v })
    (·.n100) (fun v => v) fun _ => rfl
  have hn50 := installed_field (fun v (p : Performance Mods) => { p with n50 := v })
    (·.n50) (fun v => v) fun _ => rfl
  have hgeki := installed_field (fun v (p : Performance Mods) => { p with nGeki := v })
    (·.nGeki) (fun v => v) fun _ => rfl
  have hkatu := installed_field (fun v (p : Performance Mods) => { p with nKatu := v })
    (·.nKatu) (fun v => v) fun _ => rfl
  have hlarge := installed_field (fun v (p : Performance Mods) => { p with largeTickHits := v })
    (·.largeTickHits) (fun v => v) fun _ => rfl
  have hsmall := installed_field (fun v (p : Performance Mods) => { p with smallTickHits := v })
    (·.smallTickHits) (fun v => v) fun _ => rfl
  have hends := installed_field (fun v (p : Performance Mods) => { p with sliderEndHits := v })
    (·.sliderEndHits) (fun v => v) fun _ => rfl
  have hpriority := installed_value
    (fun v (p : Performance Mods) => { p with hitresultPriority := v })
    (·.hitresultPriority) fun _ => rfl
  unfold applyScoreParams
  simp only [hcombo, haccuracy, hmisses, hn300, hn100, hn50, hgeki, hkatu, hlarge, hsmall, hends,
    hpriority, Option.map_id']

/-- `apply_score_params_to_state`: seven of the ten counters of a state. -/
def applyScoreParamsToState (state : ScoreState) (s : ScoreParams) : ScoreState :=
  let state := installed s.combo (fun v st => { st with maxCombo := v }) state
  let state := installed s.n300 (fun v st => { st with n300 := v }) state
  let state := installed s.n100 (fun v st => { st with n100 := v }) state
  let state := installed s.n50 (fun v st => { st with n50 := v }) state
  let state := installed s.nGeki (fun v st => { st with nGeki := v }) state
  let state := installed s.nKatu (fun v st => { st with nKatu := v }) state
  installed s.misses (fun v st => { st with misses := v }) state

/-- The counters that are set; the tick and slider end counters are none of them. -/
theorem applyScoreParamsToState_eq (state : ScoreState) (s : ScoreParams) :
    applyScoreParamsToState state s =
      { state with
        maxCombo := s.combo.getD state.maxCombo
        n300 := s.n300.getD state.n300
        n100 := s.n100.getD state.n100
        n50 := s.n50.getD state.n50
        nGeki := s.nGeki.getD state.nGeki
        nKatu := s.nKatu.getD state.nKatu
        misses := s.misses.getD state.misses } := by
  have hcombo := installed_value (fun v (st : ScoreState) => { st with maxCombo := v })
    (·.maxCombo) fun _ => rfl
  have hn300 := installed_value (fun v (st : ScoreState) => { st with n300 := v })
    (·.n300) fun _ => rfl
  have hn100 := installed_value (fun v (st : ScoreState) => { st with n100 := v })
    (·.n100) fun _ => rfl
  have hn50 := installed_value (fun v (st : ScoreState) => { st with n50 := v })
    (·.n50) fun _ => rfl
  have hgeki := installed_value (fun v (st : ScoreState) => { st with nGeki := v })
    (·.nGeki) fun _ => rfl
  have hkatu := installed_value (fun v (st : ScoreState) => { st with nKatu := v })
    (·.nKatu) fun _ => rfl
  have hmisses := installed_value (fun v (st : ScoreState) => { st with misses := v })
    (·.misses) fun _ => rfl
  unfold applyScoreParamsToState
  simp only [hcombo, hn300, hn100, hn50, hgeki, hkatu, hmisses]

/-- `effective_cs`, the circle size a response reports; `EZ` and `HR` are bits of the flags. -/
def effectiveCs (baseCs : F32) (settings : Option DifficultySettings) : F64 :=
  let EZ : UInt32 := 2
  let HR : UInt32 := 16
  -- the settings' own circle size if there is one, otherwise the map's
  let (cs, withMods) : F64 × Bool :=
    (settings.bind fun s => s.cs.map fun cs => (cs, s.csWithMods.getD false)).getD (baseCs, false)
  -- a value that already has the mods in it is reported as it is
  if withMods then cs
  else
    -- of the settings' mods only the flags are looked at
    let mods := (settings.bind (·.mods)).getD 0
    if mods &&& HR ≠ 0 then min (cs * (13 / 10)) 10
    else if mods &&& EZ ≠ 0 then cs * (1 / 2)
    else cs

/-! ## Attributes and strains to messages -/

/-- `osu_diff`: the library's osu! attributes with the reported circle size, which is the one
    number in the message that the library has not computed. -/
def osuDiff (a : OsuDifficultyAttributes) (cs : F64) : Proto.OsuDifficultyAttributes where
  aim := a.aim
  speed := a.speed
  flashlight := a.flashlight
  sliderFactor := a.sliderFactor
  speedNoteCount := a.speedNoteCount
  aimDifficultStrainCount := a.aimDifficultStrainCount
  speedDifficultStrainCount := a.speedDifficultStrainCount
  aimDifficultSliderCount := a.aimDifficultSliderCount
  ar := a.ar
  od := a.od
  hp := a.hp
  cs := cs
  greatHitWindow := a.greatHitWindow
  okHitWindow := a.okHitWindow
  mehHitWindow := a.mehHitWindow
  nCircles := a.nCircles
  nSliders := a.nSliders
  nSpinners := a.nSpinners
  nLargeTicks := a.nLargeTicks

/-- `taiko_diff`. -/
def taikoDiff (a : TaikoDifficultyAttributes) : Proto.TaikoDifficultyAttributes where
  stamina := a.stamina
  rhythm := a.rhythm
  color := a.color
  reading := a.reading
  greatHitWindow := a.greatHitWindow
  okHitWindow := a.okHitWindow
  monoStaminaFactor := a.monoStaminaFactor
  isConvert := a.isConvert

/-- `catch_diff`: the library's `ar` is not passed on; `..Default::default()` stands for it. -/
def catchDiff (a : CatchDifficultyAttributes) : Proto.CatchDifficultyAttributes where
  nFruits := a.nFruits
  nDroplets := a.nDroplets
  nTinyDroplets := a.nTinyDroplets
  isConvert := a.isConvert

/-- `mania_diff`. -/
def maniaDiff (a : ManiaDifficultyAttributes) : Proto.ManiaDifficultyAttributes where
  nObjects := a.nObjects
  nHoldNotes := a.nHoldNotes
  isConvert := a.isConvert

/-- `osu_perf`. -/
def osuPerf (a : OsuPerformanceAttributes) (cs : F64) : Proto.OsuPerformanceAttributes where
  difficulty := some (osuDiff a.difficulty cs)
  ppAim := a.ppAim
  ppSpeed := a.ppSpeed
  ppAcc := a.ppAcc
  ppFlashlight := a.ppFlashlight
  effectiveMissCount := a.effectiveMissCount
  speedDeviation := a.speedDeviation

/-- `taiko_perf`. -/
def taikoPerf (a : TaikoPerformanceAttributes) : Proto.TaikoPerformanceAttributes where
  difficulty := some (taikoDiff a.difficulty)
  ppAcc := a.ppAcc
  ppDifficulty := a.ppDifficulty
  estimatedUnstableRate := a.estimatedUnstableRate

/-- `catch_perf`. -/
def catchPerf (a : CatchPerformanceAttributes) : Proto.CatchPerformanceAttributes where
  difficulty := some (catchDiff a.difficulty)

/-- `mania_perf`. -/
def maniaPerf (a : ManiaPerformanceAttributes) : Proto.ManiaPerformanceAttributes where
  difficulty := some (maniaDiff a.difficulty)
  ppDifficulty := a.ppDifficulty

/-- The `mode` a response names for attributes or strains of this mode. -/
def DifficultyAttributes.mode : DifficultyAttributes → Proto.GameMode
  | .osu _ => .osu
  | .taiko _ => .taiko
  | .catch_ _ => .catch_
  | .mania _ => .mania

/-- The `oneof attributes` of both difficulty responses. -/
def diffAttributes (attrs : DifficultyAttributes) (cs : F64) : Proto.DifficultyAttributes :=
  match attrs with
  | .osu a => .osu (osuDiff a cs)
  | .taiko a => .taiko (taikoDiff a)
  | .catch_ a => .catch_ (catchDiff a)
  | .mania a => .mania (maniaDiff a)

/-- `difficulty_to_proto`. -/
def difficultyToProto (attrs : DifficultyAttributes) (cs : F64) : Proto.DifficultyResponse where
  mode := attrs.mode.toI32
  stars := attrs.stars
  maxCombo := attrs.maxCombo
  attributes := some (diffAttributes attrs cs)

/-- The same for performance attributes. -/
def PerformanceAttributes.mode : PerformanceAttributes → Proto.GameMode
  | .osu _ => .osu
  | .taiko _ => .taiko
  | .catch_ _ => .catch_
  | .mania _ => .mania

/-- `performance_to_proto`: a performance response has the difficulty attributes inside. -/
def performanceToProto (attrs : PerformanceAttributes) (cs : F64) :
    Proto.PerformanceResponse where
  mode := attrs.mode.toI32
  pp := attrs.pp
  stars := attrs.stars
  maxCombo := attrs.maxCombo
  attributes := some (match attrs with
    | .osu a => .osu (osuPerf a cs)
    | .taiko a => .taiko (taikoPerf a)
    | .catch_ a => .catch_ (catchPerf a)
    | .mania a => .mania (maniaPerf a))

/-- `strains_to_proto`: the four shapes of strain data, each under the name of its mode. -/
def strainsToProto (strains : Strains) : Proto.StrainsResponse :=
  let sectionLength := strains.sectionLen
  match strains.series with
  | .osu aim aimNoSliders speed flashlight =>
    { mode := Proto.GameMode.osu.toI32, sectionLength,
      strains := some (.osu { aim, aimNoSliders, speed, flashlight }) }
  | .taiko color reading rhythm stamina singleColorStamina =>
    { mode := Proto.GameMode.taiko.toI32, sectionLength,
      strains := some (.taiko { color, reading, rhythm, stamina, singleColorStamina }) }
  | .catch_ movement =>
    { mode := Proto.GameMode.catch_.toI32, sectionLength,
      strains := some (.catch_ { movement }) }
  | .mania strains =>
    { mode := Proto.GameMode.mania.toI32, sectionLength,
      strains := some (.mania { strains }) }

/-- `iter().filter(..).count() as u32`. -/
def countKind (kind : HitObjectKind) (objects : List HitObjectKind) : UInt32 :=
  UInt32.ofNat (objects.filter (· = kind)).length

/-- `beatmap_to_proto`: the map as it was loaded, before any conversion. -/
def beatmapToProto (map : Map) : Proto.BeatmapInfoResponse :=
  let d := rosu.data map
  { version := d.version.toUInt32
    mode := (modeToProto d.mode).toI32
    isConvert := d.isConvert
    hp := d.hp
    cs := d.cs
    od := d.od
    ar := d.ar
    sliderMultiplier := d.sliderMultiplier
    sliderTickRate := d.sliderTickRate
    stackLeniency := d.stackLeniency
    bpm := d.bpm
    nCircles := countKind .circle d.hitObjects
    nSliders := countKind .slider d.hitObjects
    nSpinners := countKind .spinner d.hitObjects
    nHolds := countKind .hold d.hitObjects
    nObjects := UInt32.ofNat d.hitObjects.length }

/-- `difficulty_attrs_to_gradual_proto`: one item of the difficulty stream, numbered by its place
    in it. -/
def difficultyAttrsToGradualProto (index : UInt32) (attrs : DifficultyAttributes) (cs : F64) :
    Proto.GradualDifficultyResponse where
  objectIndex := index
  stars := attrs.stars
  maxCombo := attrs.maxCombo
  attributes := some (diffAttributes attrs cs)

end PpService
