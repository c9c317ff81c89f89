/-
  ONE SETTINGS MESSAGE, SEVERAL READERS: which mods and which configuration an endpoint
  computes with.

  A request's settings are read in up to three places: `load_and_convert` takes mods from them
  for the conversion, `build_difficulty` builds the library's configuration, and `strain_graph`
  resolves mods of its own and uses nothing else.

  1. **The configuration** that `build_difficulty` builds, field by field
     (`buildDifficulty_some`): the parsed acronyms, or the flags, or no mods; and every
     override that is present.

  2. **An endpoint** loads, converts with `conversionMods`, and computes with its `difficultyOf`
     (`Endpoint.run_eq`); that much is common to all of them.

  3. **Conversion.**  `load_and_convert` reads the flags alone.  It converts with the mods of
     the calculation if and only if the acronyms, where they parse, say what the flags say.

  4. **Performance** is computed under the mods, the clock rate and the lazer flag of the
     difficulty whose attributes it starts from.

  5. **The strain graph** draws the strains of `Difficulty::new().mods(..)`.  They are computed
     as `GetStrains` computes them if and only if the settings override nothing but mods.

  Every comparison comes down to configurations, which are records, and an equality of records is
  an equality of fields.  The hypothesis that flags of zero are no mods (`modsOfBits 0`) is
  needed where the strain graph resolves absent flags as zero and `build_difficulty` as the
  default.
-/
import PpService.Serving

namespace PpService

open Proto (BeatmapSource DifficultySettings DifficultyRequest PerformanceRequest StrainsRequest
  StrainGraphRequest GradualDifficultyRequest GradualPerformanceRequest DifficultyResponse
  PerformanceResponse StrainsResponse StrainGraphResponse)

variable {Map Mods GD GP : Type} (rosu : RosuPp Map Mods GD GP) (plot : Plotting) (fs : Files)

/-! ## The configuration of `build_difficulty` -/

/-- What a bitflags field stands for. -/
def flagMods (mods : Option UInt32) : Mods :=
  match mods with
  | some bits => rosu.modsOfBits bits
  | none => rosu.modsDefault

/-- The parsed acronyms where they are present and parse, otherwise the flags: the mods that all
    three cascades of the source come to. -/
def resolvedMods (settings : Option DifficultySettings) : Mods :=
  match (settings.bind (·.modsStr)).bind rosu.parseMods with
  | some gameMods => gameMods
  | none => flagMods rosu (settings.bind (·.mods))

/-- Every field of the configuration comes from its setting. -/
theorem buildDifficulty_some (s : DifficultySettings) :
    Calculator.buildDifficulty rosu (some s)
      = { mods := resolvedMods rosu (some s)
          clockRate := s.clockRate
          ar := s.ar.map (·, s.arWithMods.getD false)
          cs := s.cs.map (·, s.csWithMods.getD false)
          hp := s.hp.map (·, s.hpWithMods.getD false)
          od := s.od.map (·, s.odWithMods.getD false)
          passedObjects := s.passedObjects
          hardrockOffsets := s.hardrockOffsets
          lazer := s.lazer } := by
  have hflags : installed s.mods (fun v d => { d with mods := rosu.modsOfBits v })
      (Difficulty.new rosu) = { Difficulty.new rosu with mods := flagMods rosu s.mods } := by
    cases s.mods <;> rfl
  have hrate := installed_field (fun v (d : Difficulty Mods) => { d with clockRate := v })
    (·.clockRate) (fun rate => rate) fun _ => rfl
  have har := installed_field (fun v (d : Difficulty Mods) => { d with ar := v })
    (·.ar) (fun v => (v, s.arWithMods.getD false)) fun _ => rfl
  have hcs := installed_field (fun v (d : Difficulty Mods) => { d with cs := v })
    (·.cs) (fun v => (v, s.csWithMods.getD false)) fun _ => rfl
  have hhp := installed_field (fun v (d : Difficulty Mods) => { d with hp := v })
    (·.hp) (fun v => (v, s.hpWithMods.getD false)) fun _ => rfl
  have hod := installed_field (fun v (d : Difficulty Mods) => { d with od := v })
    (·.od) (fun v => (v, s.odWithMods.getD false)) fun _ => rfl
  have hpassed := installed_field (fun v (d : Difficulty Mods) => { d with passedObjects := v })
    (·.passedObjects) (fun n => n) fun _ => rfl
  have hoffsets := installed_field
    (fun v (d : Difficulty Mods) => { d with hardrockOffsets := v })
    (·.hardrockOffsets) (fun b => b) fun _ => rfl
  have hlazer := installed_field (fun v (d : Difficulty Mods) => { d with lazer := v })
    (·.lazer) (fun b => b) fun _ => rfl
  show applyDifficultySettings rosu (Difficulty.new rosu) s = _
  unfold applyDifficultySettings
  simp only [hflags, hrate, har, hcs, hhp, hod, hpassed, hoffsets, hlazer]
  -- what is left is the cascade over the acronyms and the flags
  unfold resolvedMods
  cases hstr : s.modsStr with
  | none => simp [hstr, Difficulty.new]
  | some str =>
    cases hparse : rosu.parseMods str with
    | none => simp [hstr, hparse, Difficulty.new]
    | some gameMods => simp [hstr, hparse, Difficulty.new]

/-- With or without settings, the configuration has the resolved mods. -/
theorem buildDifficulty_mods (settings : Option DifficultySettings) :
    (Calculator.buildDifficulty rosu settings).mods = resolvedMods rosu settings := by
  cases settings with
  | none => rfl
  | some s => rw [buildDifficulty_some]

/-! ## The endpoints -/

/-- The endpoints that convert their beatmap.  A batch is `performance` on each item. -/
inductive Endpoint where
  | difficulty (req : DifficultyRequest)
  | performance (req : PerformanceRequest)
  | strains (req : StrainsRequest)
  | strainGraph (req : StrainGraphRequest)
  | gradualDifficulty (req : GradualDifficultyRequest)
  | gradualPerformance (req : GradualPerformanceRequest)

namespace Endpoint

/-- The beatmap the endpoint is asked about. -/
def source : Endpoint → Option BeatmapSource
  | difficulty req => req.beatmap
  | performance req => req.beatmap
  | strains req => req.beatmap
  | strainGraph req => req.beatmap
  | gradualDifficulty req => req.beatmap
  | gradualPerformance req => req.beatmap

/-- The mode it is to be converted to. -/
def mode : Endpoint → Proto.GameMode
  | difficulty req => .ofField req.mode
  | performance req => .ofField req.mode
  | strains req => .ofField req.mode
  | strainGraph req => .ofField req.mode
  | gradualDifficulty req => .ofField req.mode
  | gradualPerformance req => .ofField req.mode

/-- Its settings, which the two performance messages call `difficulty_settings`. -/
def settings : Endpoint → Option DifficultySettings
  | difficulty req => req.settings
  | performance req => req.difficultySettings
  | strains req => req.settings
  | strainGraph req => req.settings
  | gradualDifficulty req => req.settings
  | gradualPerformance req => req.difficultySettings

/-- What the endpoint answers. -/
def Answer (GD GP : Type) : Endpoint → Type
  | difficulty _ => DifficultyResponse
  | performance _ => PerformanceResponse
  | strains _ => StrainsResponse
  | strainGraph _ => StrainGraphResponse
  | gradualDifficulty _ => GradualDifficultyIter GD
  | gradualPerformance _ => GradualPerformanceCalc GP

/-- The endpoint's method of the calculator. -/
def run : (e : Endpoint) → BeatmapCache Map → Except Error (e.Answer GD GP) × BeatmapCache Map
  | difficulty req => Calculator.difficulty rosu fs req
  | performance req => Calculator.performance rosu fs req
  | strains req => Calculator.strains rosu fs req
  | strainGraph req => Calculator.strainGraph rosu plot fs req
  | gradualDifficulty req => Calculator.gradualDifficulty rosu fs req
  | gradualPerformance req => Calculator.gradualPerformance rosu fs req

/-- The configuration the endpoint computes under. -/
def difficultyOf : Endpoint → Difficulty Mods
  | strainGraph req => graphDifficulty rosu (Calculator.strainGraphMods rosu req.settings)
  | e => Calculator.buildDifficulty rosu e.settings

/-- What the endpoint computes from a configuration and the converted map. -/
def compute : (e : Endpoint) → Difficulty Mods → Map → Except Error (e.Answer GD GP)
  | difficulty req, d, map =>
    .ok (difficultyToProto (rosu.calculate d map) (effectiveCs (rosu.data map).cs req.settings))
  | performance req, d, map =>
    let perf := Performance.new rosu (rosu.calculate d map)
    let perf := installed req.difficultySettings
      (fun s perf => Calculator.applyPerformanceSettings rosu perf s) perf
    let perf := installed req.score (fun score perf => applyScoreParams perf score) perf
    .ok (performanceToProto (rosu.calculatePerformance perf)
      (effectiveCs (rosu.data map).cs req.difficultySettings))
  | strains _, d, map => .ok (strainsToProto (rosu.strains d map))
  | strainGraph req, d, map =>
    (renderStrainGraph rosu plot map d.mods req.width req.height req.background).map fun pngData =>
      { pngData }
  | gradualDifficulty req, d, map =>
    .ok (.new (rosu.gradualDifficulty d map) (effectiveCs (rosu.data map).cs req.settings))
  | gradualPerformance req, d, map => .ok (.new (rosu.gradualPerformance d map) req)

end Endpoint

/-- `load_and_convert` after `load_beatmap`, with the mods it passes to `convert_mut`. -/
def convertWith (mode : Proto.GameMode) (mods : Mods) (map : Map) : Except Error Map :=
  match protoToMode mode with
  | none => .ok map
  | some target =>
    if (rosu.data map).mode = target then .ok map
    else (rosu.convertMut map target mods).mapError fun _ => .conversion

/-- Every endpoint loads, converts with `conversionMods`, and computes under its
    `difficultyOf`. -/
theorem Endpoint.run_eq (e : Endpoint) (c : BeatmapCache Map) :
    e.run rosu plot fs c
      = thenPure (Calculator.loadBeatmap rosu fs e.source c) fun map =>
        (convertWith rosu e.mode (Calculator.conversionMods rosu e.settings) map).bind
          (e.compute rosu plot (e.difficultyOf rosu)) := by
  cases e with
  | difficulty req => exact thenPure_thenPure _ _ _
  | performance req => exact thenPure_thenPure _ _ _
  | strains req => exact thenPure_thenPure _ _ _
  | strainGraph req => exact thenPure_thenPure _ _ _
  | gradualDifficulty req => exact thenPure_thenPure _ _ _
  | gradualPerformance req => exact thenPure_thenPure _ _ _

/-! ## Conversion -/

/-- The acronyms, where they are present and parse, say what the flags say.  A request with flags
    only meets it; one with acronyms only meets it if they stand for no mods. -/
def AcronymsAgree (settings : Option DifficultySettings) : Prop :=
  ∀ str gameMods, settings.bind (·.modsStr) = some str → rosu.parseMods str = some gameMods →
    gameMods = flagMods rosu (settings.bind (·.mods))

/-- The conversion takes the flags and never asks for acronyms. -/
theorem conversionMods_eq (settings : Option DifficultySettings) :
    Calculator.conversionMods rosu settings = flagMods rosu (settings.bind (·.mods)) := by
  unfold Calculator.conversionMods flagMods
  cases settings.bind (·.mods) <;> rfl

/-- It makes a difference where the acronyms parse to something else. -/
theorem flagMods_eq_resolvedMods_iff (settings : Option DifficultySettings) :
    flagMods rosu (settings.bind (·.mods)) = resolvedMods rosu settings ↔
      AcronymsAgree rosu settings := by
  unfold resolvedMods AcronymsAgree
  constructor
  · -- acronyms that parse are what is resolved
    intro heq str gameMods hstr hparse
    simp only [hstr, Option.bind_some, hparse] at heq
    exact heq.symm
  · -- everything else falls back to the flags
    intro hagree
    cases hstr : settings.bind (·.modsStr) with
    | none => simp only [Option.bind_none]
    | some str =>
      cases hparse : rosu.parseMods str with
      | none => simp only [Option.bind_some, hparse]
      | some gameMods =>
        simp only [Option.bind_some, hparse]
        exact (hagree str gameMods hstr hparse).symm

/-- The strain graph resolves its mods as `build_difficulty` does, where no flags are the
    empty flags. -/
theorem strainGraphMods_eq (hzero : rosu.modsOfBits 0 = rosu.modsDefault)
    (settings : Option DifficultySettings) :
    Calculator.strainGraphMods rosu settings = resolvedMods rosu settings := by
  -- its own cascade ends in `mods.unwrap_or(0)`, the other in the default
  have hflags : ∀ mods : Option UInt32, rosu.modsOfBits (mods.getD 0) = flagMods rosu mods := by
    intro mods
    cases mods with
    | none => exact hzero
    | some bits => rfl
  unfold Calculator.strainGraphMods resolvedMods
  cases settings with
  | none => rfl
  | some s =>
    cases hstr : s.modsStr with
    | none => simp [hstr, hflags]
    | some str =>
      cases hparse : rosu.parseMods str with
      | none => simp [hstr, hparse, hflags]
      | some gameMods => simp [hstr, hparse]

/-- Every endpoint computes under the resolved mods. -/
theorem Endpoint.difficultyOf_mods (hzero : rosu.modsOfBits 0 = rosu.modsDefault) (e : Endpoint) :
    (e.difficultyOf rosu).mods = resolvedMods rosu e.settings := by
  cases e with
  | strainGraph req => exact strainGraphMods_eq rosu hzero req.settings
  -- all others run under `build_difficulty`
  | _ => exact buildDifficulty_mods rosu _

/-- **Conversion uses the mods of the calculation** if and only if the acronyms, where they
    parse, say what the flags say; on every endpoint, whatever the beatmap and the mode. -/
theorem conversion_mods_agree_iff (hzero : rosu.modsOfBits 0 = rosu.modsDefault) (e : Endpoint)
    (c : BeatmapCache Map) :
    e.run rosu plot fs c
      = thenPure (Calculator.loadBeatmap rosu fs e.source c) (fun map =>
        (convertWith rosu e.mode (Calculator.conversionMods rosu e.settings) map).bind
          (e.compute rosu plot (e.difficultyOf rosu))) ∧
    (e.difficultyOf rosu).mods = resolvedMods rosu e.settings ∧
    (Calculator.conversionMods rosu e.settings = (e.difficultyOf rosu).mods ↔
      AcronymsAgree rosu e.settings) := by
  refine ⟨e.run_eq rosu plot fs c, e.difficultyOf_mods rosu hzero, ?_⟩
  rw [e.difficultyOf_mods rosu hzero, conversionMods_eq, flagMods_eq_resolvedMods_iff]

/-- Four keys asked for by acronym: the conversion knows nothing of them. -/
theorem conversion_ignores_acronyms :
    Calculator.conversionMods RosuPp.sample (some { modsStr := some "4K" }) = 0 ∧
      (Calculator.buildDifficulty RosuPp.sample (some { modsStr := some "4K" })).mods = 32768 := by
  decide

/-- A mod asked for both ways: the theorem at such a request. -/
theorem conversion_mods_agree_hidden :
    Calculator.conversionMods RosuPp.sample (some { mods := some 8, modsStr := some "HD" })
        = (Calculator.buildDifficulty RosuPp.sample
            (some { mods := some 8, modsStr := some "HD" })).mods ↔
      AcronymsAgree RosuPp.sample (some { mods := some 8, modsStr := some "HD" }) :=
  (conversion_mods_agree_iff RosuPp.sample Plotting.blank noFiles rfl
    (.strains { beatmap := none, mode := none
                settings := some { mods := some 8, modsStr := some "HD" } }) (.new 1)).2.2

/-! ## Performance -/

/-- The settings of a fresh performance builder are those of the configuration that
    `build_difficulty` builds from the same message. -/
theorem applyPerformanceSettings_new (attributes : DifficultyAttributes) (s : DifficultySettings) :
    Calculator.applyPerformanceSettings rosu (Performance.new rosu attributes) s
      = { Performance.new rosu attributes with
          mods := resolvedMods rosu (some s)
          clockRate := s.clockRate
          lazer := s.lazer } := by
  have hflags : installed s.mods (fun m perf => { perf with mods := rosu.modsOfBits m })
      (Performance.new rosu attributes)
        = { Performance.new rosu attributes with mods := flagMods rosu s.mods } := by
    cases s.mods <;> rfl
  have hrate := installed_field (fun v (p : Performance Mods) => { p with clockRate := v })
    (·.clockRate) (fun rate => rate) fun _ => rfl
  have hlazer := installed_field (fun v (p : Performance Mods) => { p with lazer := v })
    (·.lazer) (fun b => b) fun _ => rfl
  unfold Calculator.applyPerformanceSettings
  simp only [hflags, hrate, hlazer]
  -- the same cascade once more
  unfold resolvedMods
  cases hstr : s.modsStr with
  | none => simp [hstr, Performance.new]
  | some str =>
    cases hparse : rosu.parseMods str with
    | none => simp [hstr, hparse, Performance.new]
    | some gameMods => simp [hstr, hparse, Performance.new]

/-- The same with or without a settings message. -/
theorem installedSettings (attributes : DifficultyAttributes)
    (settings : Option DifficultySettings) :
    let p := installed settings (fun s perf => Calculator.applyPerformanceSettings rosu perf s)
      (Performance.new rosu attributes)
    p.attributes = attributes ∧ p.mods = (Calculator.buildDifficulty rosu settings).mods ∧
      p.clockRate = (Calculator.buildDifficulty rosu settings).clockRate ∧
      p.lazer = (Calculator.buildDifficulty rosu settings).lazer := by
  intro p
  cases settings with
  | none => exact ⟨rfl, rfl, rfl, rfl⟩
  | some s =>
    have hp : p = Calculator.applyPerformanceSettings rosu (Performance.new rosu attributes) s :=
      rfl
    rw [hp, applyPerformanceSettings_new, buildDifficulty_some]
    exact ⟨rfl, rfl, rfl, rfl⟩

/-- The score parameters touch none of the settings. -/
theorem applyScoreParams_settings (p : Performance Mods) (score : Option Proto.ScoreParams) :
    (installed score (fun score perf => applyScoreParams perf score) p).attributes = p.attributes ∧
    (installed score (fun score perf => applyScoreParams perf score) p).mods = p.mods ∧
    (installed score (fun score perf => applyScoreParams perf score) p).clockRate = p.clockRate ∧
    (installed score (fun score perf => applyScoreParams perf score) p).lazer = p.lazer := by
  cases score with
  | none => exact ⟨rfl, rfl, rfl, rfl⟩
  | some score =>
    show (applyScoreParams p score).attributes = _ ∧ (applyScoreParams p score).mods = _ ∧
      (applyScoreParams p score).clockRate = _ ∧ (applyScoreParams p score).lazer = _
    rw [applyScoreParams_eq]
    exact ⟨rfl, rfl, rfl, rfl⟩

/-- **Difficulty and performance are computed under the same settings**, and the strain graph
    resolves the same mods: the parsed acronyms, or the flags, or none.  The first two parts say
    where the endpoints compute with what the others compare; the graph is asked for with the
    settings of the performance. -/
theorem performance_settings_agree (hzero : rosu.modsOfBits 0 = rosu.modsDefault)
    (req : PerformanceRequest) (width height : UInt32) (background : Option ByteArray)
    (c : BeatmapCache Map) :
    Calculator.performance rosu fs req c
      = thenPure (Calculator.loadAndConvert rosu fs req.beatmap (.ofField req.mode)
          req.difficultySettings c) (fun map =>
        .ok (performanceToProto
          (rosu.calculatePerformance (Calculator.buildPerformance rosu req map))
          (effectiveCs (rosu.data map).cs req.difficultySettings))) ∧
    Calculator.strainGraph rosu plot fs
        { beatmap := req.beatmap, mode := req.mode, settings := req.difficultySettings
          width, height, background } c
      = thenPure (Calculator.loadAndConvert rosu fs req.beatmap (.ofField req.mode)
          req.difficultySettings c) (fun map =>
        (renderStrainGraph rosu plot map (Calculator.strainGraphMods rosu req.difficultySettings)
          width height background).map fun pngData => { pngData }) ∧
    ∀ map,
      let difficulty := Calculator.buildDifficulty rosu req.difficultySettings
      let perf := Calculator.buildPerformance rosu req map
      perf.attributes = rosu.calculate difficulty map ∧
        perf.mods = difficulty.mods ∧ perf.clockRate = difficulty.clockRate ∧
        perf.lazer = difficulty.lazer ∧
        Calculator.strainGraphMods rosu req.difficultySettings = difficulty.mods ∧
        difficulty.mods = resolvedMods rosu req.difficultySettings := by
  refine ⟨rfl, rfl, ?_⟩
  intro map difficulty perf
  have hmods : difficulty.mods = resolvedMods rosu req.difficultySettings :=
    buildDifficulty_mods rosu _
  have hgraph : Calculator.strainGraphMods rosu req.difficultySettings = difficulty.mods := by
    rw [hmods, strainGraphMods_eq rosu hzero]
  -- what the settings install, and then the score parameters, which touch none of it
  obtain ⟨hattributes, hperf, hrate, hlazer⟩ :=
    installedSettings rosu (rosu.calculate difficulty map) req.difficultySettings
  obtain ⟨hattributes', hperf', hrate', hlazer'⟩ := applyScoreParams_settings
    (installed req.difficultySettings
      (fun s perf => Calculator.applyPerformanceSettings rosu perf s)
      (Performance.new rosu (rosu.calculate difficulty map))) req.score
  exact ⟨hattributes'.trans hattributes, hperf'.trans hperf, hrate'.trans hrate,
    hlazer'.trans hlazer, hgraph, hmods⟩

/-- A performance request with flags, acronyms, a clock rate and the lazer flag. -/
def acronymRequest (acronyms : String) : PerformanceRequest :=
  { beatmap := none, mode := none, score := none
    difficultySettings := some
      { mods := some 8, modsStr := some acronyms, clockRate := some (3 / 2), lazer := some false } }

/-- The theorem at acronyms that parse, which all use instead of the flags, and at some that do
    not, where all fall back to the flags. -/
theorem performance_settings_agree_acronyms :
    (Calculator.buildPerformance RosuPp.sample (acronymRequest "4K") songA.toUTF8).mods = 32768 ∧
      Calculator.strainGraphMods RosuPp.sample (acronymRequest "4K").difficultySettings = 32768 ∧
      (Calculator.buildPerformance RosuPp.sample (acronymRequest "?") songA.toUTF8).mods = 8 ∧
      Calculator.strainGraphMods RosuPp.sample (acronymRequest "?").difficultySettings = 8 := by
  obtain ⟨-, -, hparsed⟩ := performance_settings_agree RosuPp.sample Plotting.blank noFiles rfl
    (acronymRequest "4K") 0 0 none (.new 1)
  obtain ⟨-, -, hfallback⟩ := performance_settings_agree RosuPp.sample Plotting.blank noFiles rfl
    (acronymRequest "?") 0 0 none (.new 1)
  obtain ⟨-, hmods, -, -, hgraph, hresolved⟩ := hparsed songA.toUTF8
  obtain ⟨-, hmods', -, -, hgraph', hresolved'⟩ := hfallback songA.toUTF8
  have hkeys : resolvedMods RosuPp.sample (acronymRequest "4K").difficultySettings = 32768 := by
    decide
  have hflags : resolvedMods RosuPp.sample (acronymRequest "?").difficultySettings = 8 := by
    decide
  exact ⟨hmods.trans (hresolved.trans hkeys), hgraph.trans (hresolved.trans hkeys),
    hmods'.trans (hresolved'.trans hflags), hgraph'.trans (hresolved'.trans hflags)⟩

/-! ## The strain graph -/

/-- `render_strain_graph` from the strains on. -/
def renderStrains (strains : Strains) (width height : UInt32) (background : Option ByteArray) :
    Except Error ByteArray := do
  let w := if width = 0 then defaultWidth else width
  let h := if height = 0 then defaultHeight else height
  let strains ← GraphStrains.ofStrains plot strains
  let last := lastTimestamp strains
  let maxStrain := calculateMaxStrain strains.strains
  if maxStrain ≤ f64Epsilon then
    throw .noStrainData
  (plot.draw w h background (min last 1, last) maxStrain (drawModeStrains strains)).mapError
    Error.graphRendering

/-- The settings override nothing but mods: every other field of the message is absent.  Settings
    that are absent altogether override nothing. -/
def OnlyMods (settings : Option DifficultySettings) : Prop :=
  ∀ s, settings = some s → s.clockRate = none ∧ s.ar = none ∧ s.cs = none ∧ s.hp = none ∧
    s.od = none ∧ s.passedObjects = none ∧ s.hardrockOffsets = none ∧ s.lazer = none

/-- The graph's configuration has mods and defaults, so it is the other one where that has nothing
    else. -/
theorem graphDifficulty_eq_iff (settings : Option DifficultySettings) :
    graphDifficulty rosu (resolvedMods rosu settings) = Calculator.buildDifficulty rosu settings ↔
      OnlyMods settings := by
  cases settings with
  | none =>
    constructor
    · intro _ s hs
      cases hs
    · intro _
      rfl
  | some s =>
    rw [buildDifficulty_some]
    constructor
    · -- equal configurations agree in every field, and the graph's are unset
      intro heq s' hs'
      cases hs'
      have hfields := heq.symm
      simp only [graphDifficulty, Difficulty.new, Difficulty.mk.injEq, Option.map_eq_none_iff]
        at hfields
      exact hfields.2
    · -- fields that are not set have nothing to differ in
      intro honly
      obtain ⟨hrate, har, hcs, hhp, hod, hpassed, hoffsets, hlazer⟩ := honly s rfl
      simp [graphDifficulty, Difficulty.new, hrate, har, hcs, hhp, hod, hpassed, hoffsets, hlazer]

/-- **The strain graph draws the strains of `GetStrains`** if and only if the settings override
    nothing but mods.  Both endpoints load and convert alike and ask the library for strains;
    only the configurations may differ. -/
theorem strain_graph_agrees_iff (hzero : rosu.modsOfBits 0 = rosu.modsDefault)
    (source : Option BeatmapSource) (mode : Option Int32) (settings : Option DifficultySettings)
    (width height : UInt32) (background : Option ByteArray) (c : BeatmapCache Map) :
    Calculator.strains rosu fs { beatmap := source, mode, settings } c
      = thenPure (Calculator.loadAndConvert rosu fs source (.ofField mode) settings c) (fun map =>
        .ok (strainsToProto (rosu.strains (Calculator.buildDifficulty rosu settings) map))) ∧
    Calculator.strainGraph rosu plot fs
        { beatmap := source, mode, settings, width, height, background } c
      = thenPure (Calculator.loadAndConvert rosu fs source (.ofField mode) settings c) (fun map =>
        (renderStrains plot
          (rosu.strains (graphDifficulty rosu (Calculator.strainGraphMods rosu settings)) map)
          width height background).map fun pngData => { pngData }) ∧
    (graphDifficulty rosu (Calculator.strainGraphMods rosu settings)
        = Calculator.buildDifficulty rosu settings ↔
      OnlyMods settings) := by
  refine ⟨rfl, rfl, ?_⟩
  rw [strainGraphMods_eq rosu hzero, graphDifficulty_eq_iff]

/-- The theorem at settings with mods both ways and nothing else: one configuration, and not the
    default one. -/
theorem strain_graph_agrees_with_mods :
    graphDifficulty RosuPp.sample (Calculator.strainGraphMods RosuPp.sample
        (some { mods := some 8, modsStr := some "4K" }))
      = Calculator.buildDifficulty RosuPp.sample (some { mods := some 8, modsStr := some "4K" }) ∧
    (Calculator.buildDifficulty RosuPp.sample
      (some { mods := some 8, modsStr := some "4K" })).mods = 32768 := by
  have honly : OnlyMods (some { mods := some 8, modsStr := some "4K" }) := by
    intro s hs
    cases hs
    exact ⟨rfl, rfl, rfl, rfl, rfl, rfl, rfl, rfl⟩
  exact ⟨(strain_graph_agrees_iff RosuPp.sample Plotting.blank noFiles rfl none none
    (some { mods := some 8, modsStr := some "4K" }) 0 0 none (.new 1)).2.2.mpr honly, by decide⟩

/-- A library whose strains are the clock rate. -/
def RosuPp.clocked :
    RosuPp ByteArray UInt32 (List DifficultyAttributes) (List PerformanceAttributes) :=
  { RosuPp.sample with
    strains := fun d _ => { sectionLen := 400, series := .mania [d.clockRate.getD 1] } }

/-- Played at 1.5, drawn at 1. -/
theorem strain_graph_ignores_clock_rate :
    (RosuPp.clocked.strains (Calculator.buildDifficulty RosuPp.clocked
        (some { clockRate := some (3 / 2) })) songA.toUTF8).series = .mania [3 / 2] ∧
      (RosuPp.clocked.strains (graphDifficulty RosuPp.clocked (Calculator.strainGraphMods
        RosuPp.clocked (some { clockRate := some (3 / 2) }))) songA.toUTF8).series = .mania [1] ∧
      graphDifficulty RosuPp.clocked (Calculator.strainGraphMods RosuPp.clocked
          (some { clockRate := some (3 / 2) }))
        ≠ Calculator.buildDifficulty RosuPp.clocked (some { clockRate := some (3 / 2) }) := by
  refine ⟨rfl, rfl, ?_⟩
  intro heq
  have hrate := congrArg Difficulty.clockRate heq
  cases hrate

end PpService
