/-
  ONE BEATMAP, SEVERAL ENDPOINTS: what their answers have in common.

  All endpoints that convert go the same way to their map: bytes, parse, suspicion check,
  conversion (`Endpoint.converted`).  That way is decided by the source, the mode and the mod
  flags alone (`Endpoint.run_coherent`), as long as an id stands for one beatmap: all results
  here are about requests `sent`, to these endpoints or earlier ones, whose bytes parse alike
  where their ids are equal, and about caches that such requests have left behind.  Then

  1. endpoints asked about the same beatmap fail alike (`endpoints_fail_alike`);
  2. an answer names the mode that was asked for, or else the mode that `GetBeatmapInfo` shows;
  3. the answer of `CalculatePerformance` contains the answer of `CalculateDifficulty`.

  The last two rest on what `rosu_pp` documents of its own functions: converted maps and
  attributes are of the mode they are asked for, and a performance carries the attributes it is
  computed from.

  (1) is read off the code in two halves.  Up to the converted map both calls do the same
  (`converted_congr`); after it nothing can fail but the strain graph, whose errors are its own
  (`Endpoint.compute_error`).  For (2) each function that makes a message is followed to the
  mode it writes there (`Endpoint.compute_mode`), and for (3) the message of a performance is
  taken apart (`difficultyPart`).
-/
import PpService.Encoding
import PpService.Server

namespace PpService

open Proto (BeatmapSource DifficultySettings DifficultyRequest PerformanceRequest
  DifficultyResponse PerformanceResponse)

variable {Map Mods GD GP : Type} (rosu : RosuPp Map Mods GD GP) (plot : Plotting) (fs : Files)

/-! ## The way to the map -/

/-- Two steps after a first one are one step after it. -/
theorem bind_bind {α β γ : Type} (x : Except Error α) (f : α → Except Error β)
    (g : β → Except Error γ) : (x.bind f).bind g = x.bind fun a => (f a).bind g := by
  cases x with
  | error err => rfl
  | ok a => rfl

/-- On a coherent cache, one that holds under each id what its bytes parse to, a load gets the map
    out of the request's own bytes. -/
theorem loadBeatmap_coherent {sent : ByteArray → Prop} {c : BeatmapCache Map}
    (hids : IdsDecide rosu sent) (hcoh : BeatmapCache.Coherent rosu sent c)
    {source : Option BeatmapSource}
    (hsent : ∀ bytes, requestBytes fs source = .ok bytes → sent bytes) :
    (Calculator.loadBeatmap rosu fs source c).1 =
      ((requestBytes fs source).bind (parseBytes rosu)).bind (Calculator.checkSuspicion rosu) := by
  cases hb : requestBytes fs source with
  | error err =>
    -- nothing to load, so the cache has no say
    rw [loadBeatmap_of_error rosu fs hb]
    rfl
  | ok bytes =>
    rw [loadBeatmap_of_ok rosu fs hb, thenPure,
      parseBeatmapCached_coherent rosu hids hcoh (hsent bytes hb)]
    rfl

namespace Endpoint

/-- The map an endpoint computes from: parse, suspicion check and conversion of the request's own
    bytes, without a cache. -/
def converted (e : Endpoint) : Except Error Map :=
  (((requestBytes fs e.source).bind (parseBytes rosu)).bind
      (Calculator.checkSuspicion rosu)).bind
    (convertWith rosu e.mode (Calculator.conversionMods rosu e.settings))

/-- **The cache does not show.**  What an endpoint answers is computed from its own bytes: on a
    coherent cache a load comes to the parse of the request's bytes, resident or not. -/
theorem run_coherent {sent : ByteArray → Prop} {c : BeatmapCache Map} (hids : IdsDecide rosu sent)
    (hcoh : BeatmapCache.Coherent rosu sent c) (e : Endpoint)
    (hsent : ∀ bytes, requestBytes fs e.source = .ok bytes → sent bytes) :
    (e.run rosu plot fs c).1 =
      (e.converted rosu fs).bind (e.compute rosu plot (e.difficultyOf rosu)) := by
  rw [run_eq, thenPure, loadBeatmap_coherent rosu fs hids hcoh hsent]
  exact (bind_bind _ _ _).symm

/-- Of the settings only the flags have a say in it. -/
theorem converted_congr {e e' : Endpoint} (hsource : e.source = e'.source)
    (hmode : e.mode = e'.mode)
    (hflags : e.settings.bind (·.mods) = e'.settings.bind (·.mods)) :
    e.converted rosu fs = e'.converted rosu fs := by
  rw [converted, converted, hsource, hmode, conversionMods_eq, conversionMods_eq, hflags]

end Endpoint

/-! ## Failing alike -/

/-- The errors that only the strain graph knows: no strain data, or a text of the drawing. -/
def GraphError (err : Error) : Prop :=
  err = .noStrainData ∨ ∃ why, err = .graphRendering why

/-- A computation that fails with graph errors only.  It goes through chains of steps, so it is read
    off the code piece by piece. -/
def OnlyGraphErrors {α : Type} (x : Except Error α) : Prop := ∀ err, x = .error err → GraphError err

namespace OnlyGraphErrors

variable {α β : Type}

theorem ok (a : α) : OnlyGraphErrors (.ok a) := by
  intro err h
  cases h

theorem error {err : Error} (h : GraphError err) :
    OnlyGraphErrors (.error err : Except Error α) := by
  rintro _ ⟨⟩
  exact h

/-- Steps in a row have the errors of the steps. -/
theorem bind {x : Except Error α} {f : α → Except Error β} (hx : OnlyGraphErrors x)
    (hf : ∀ a, OnlyGraphErrors (f a)) : OnlyGraphErrors (x >>= f) := by
  cases x with
  | error err => exact error (hx err rfl)
  | ok a => exact hf a

theorem map {x : Except Error α} (hx : OnlyGraphErrors x) (f : α → β) :
    OnlyGraphErrors (x.map f) := by
  cases x with
  | error err => exact error (hx err rfl)
  | ok a => exact ok (f a)

/-- What a crate reports is reported as a rendering error. -/
theorem mapError {ε : Type} (x : Except ε α) (text : ε → String) :
    OnlyGraphErrors (x.mapError fun why => .graphRendering (text why)) := by
  cases x with
  | error why => exact error (Or.inr ⟨_, rfl⟩)
  | ok a => exact ok a

end OnlyGraphErrors

/-- A curve fails as the crate that draws it does. -/
theorem createCurve_onlyGraphErrors (sectionLen : F64) (strains : List F64) :
    OnlyGraphErrors (createCurve plot sectionLen strains) :=
  match strains with
  | [] => .ok _
  | [_] => .ok _
  | _ :: _ :: _ => .mapError _ _

/-- So does the resampling, which draws one curve for each series. -/
theorem resample_onlyGraphErrors (strains : Strains) : OnlyGraphErrors (resample plot strains) := by
  have hcurve := createCurve_onlyGraphErrors plot strains.sectionLen
  unfold resample
  cases strains.series with
  | osu aim aimNoSliders speed flashlight =>
    exact .bind (hcurve _) fun _ => .bind (hcurve _) fun _ => .bind (hcurve _) fun _ =>
      .bind (hcurve _) fun _ => .ok _
  | taiko color reading rhythm stamina singleColorStamina =>
    exact .bind (hcurve _) fun _ => .bind (hcurve _) fun _ => .bind (hcurve _) fun _ =>
      .bind (hcurve _) fun _ => .bind (hcurve _) fun _ => .ok _
  | catch_ movement => exact .bind (hcurve _) fun _ => .ok _
  | mania strains => exact .bind (hcurve _) fun _ => .ok _

/-- And so does all of the rendering. -/
theorem renderStrainGraph_onlyGraphErrors (map : Map) (mods : Mods) (width height : UInt32)
    (background : Option ByteArray) :
    OnlyGraphErrors (renderStrainGraph rosu plot map mods width height background) := by
  have hnew : OnlyGraphErrors (GraphStrains.new rosu plot map mods) := by
    unfold GraphStrains.new GraphStrains.ofStrains
    simp only
    split
    · -- a map without strains
      exact .error (Or.inl rfl)
    · exact .map (resample_onlyGraphErrors plot _) _
  refine .bind hnew fun strains => ?_
  simp only
  split
  · -- strains that are all zero
    exact .error (Or.inl rfl)
  · exact .mapError _ _

/-- Past the conversion only the strain graph can fail: the library's calculations are total, and
    what becomes of them is a message in any case. -/
theorem Endpoint.compute_error {e : Endpoint} {d : Difficulty Mods} {map : Map} {err : Error}
    (h : e.compute rosu plot d map = .error err) :
    ∃ req, e = .strainGraph req ∧ GraphError err := by
  cases e with
  | strainGraph req =>
    exact ⟨req, rfl, (renderStrainGraph_onlyGraphErrors rosu plot _ _ _ _ _).map _ err h⟩
  -- the others only compute, and answer
  | difficulty req => cases h
  | performance req => cases h
  | strains req => cases h
  | gradualDifficulty req => cases h
  | gradualPerformance req => cases h

theorem bind_eq_ok {α β : Type} {x : Except Error α} {f : α → Except Error β} {b : β}
    (h : x.bind f = .ok b) : ∃ a, x = .ok a ∧ f a = .ok b := by
  cases x with
  | error err => cases h
  | ok a => exact ⟨a, rfl, h⟩

theorem bind_eq_error {α β : Type} {x : Except Error α} {f : α → Except Error β} {err : Error}
    (h : x.bind f = .error err) : x = .error err ∨ ∃ a, f a = .error err := by
  cases x with
  | error err' => exact Or.inl (by cases h; rfl)
  | ok a => exact Or.inr ⟨a, h⟩

/-- **Endpoints fail alike.**  `sent` are the bytes of the two calls and of those that have filled
    the two caches; bytes in it that have the same id parse alike.  Two calls about the same
    beatmap in the same mode and with the same mod flags then fail with the same error; only the
    strain graph has errors of its own. -/
theorem endpoints_fail_alike {sent : ByteArray → Prop} {c c' : BeatmapCache Map}
    (hids : IdsDecide rosu sent) (hreach : Reachable rosu sent c) (hreach' : Reachable rosu sent c')
    {e e' : Endpoint} (hsent : ∀ bytes, requestBytes fs e.source = .ok bytes → sent bytes)
    (hsource : e.source = e'.source) (hmode : e.mode = e'.mode)
    (hflags : e.settings.bind (·.mods) = e'.settings.bind (·.mods)) {err : Error}
    (herr : (e.run rosu plot fs c).1 = .error err) :
    (e'.run rosu plot fs c').1 = .error err ∨ ∃ req, e = .strainGraph req ∧ GraphError err := by
  rw [e.run_coherent rosu plot fs hids (hreach.coherent hids) hsent] at herr
  rw [e'.run_coherent rosu plot fs hids (hreach'.coherent hids) (hsource ▸ hsent)]
  rcases bind_eq_error herr with hconv | ⟨map, hcompute⟩
  · -- the way to the map fails, and it is the same way
    left
    rw [← Endpoint.converted_congr rosu fs hsource hmode hflags, hconv]
    rfl
  · -- the way to the map is passed
    exact Or.inr (Endpoint.compute_error rosu plot hcompute)

/-- A library that converts no beatmap. -/
def RosuPp.unconverting :
    RosuPp ByteArray UInt32 (List DifficultyAttributes) (List PerformanceAttributes) :=
  { RosuPp.sample with convertMut := fun _ _ _ => .error () }

/-- A taiko calculation of an osu! beatmap. -/
def taikoDifficulty : Endpoint :=
  .difficulty { beatmap := some (contentSource songA), mode := some 2, settings := none }

/-- The same with a clock rate, which the conversion does not look at. -/
def taikoStrains : Endpoint :=
  .strains { beatmap := some (contentSource songA), mode := some 2
             settings := some { clockRate := some 2 } }

/-- The theorem at two calls for a conversion that is refused: one finds its beatmap in the cache,
    the other parses it and evicts another song. -/
theorem endpoints_fail_alike_unconverting :
    ∃ c c', c.lookup 1 = some songA.toUTF8 ∧ c'.lookup 1 = none ∧
      (taikoDifficulty.run RosuPp.unconverting Plotting.blank noFiles c).1
        = .error .conversion ∧
      (taikoStrains.run RosuPp.unconverting Plotting.blank noFiles c').1
        = .error .conversion := by
  have hids : IdsDecide RosuPp.unconverting fun bytes =>
      bytes = songA.toUTF8 ∨ bytes = songC.toUTF8 := idsDecide_songs
  have hreachA : Reachable RosuPp.unconverting
      (fun bytes => bytes = songA.toUTF8 ∨ bytes = songC.toUTF8) _ :=
    reachable_served RosuPp.unconverting noFiles (some (contentSource songA)) rfl (Or.inl rfl) 1
  have hreachC : Reachable RosuPp.unconverting
      (fun bytes => bytes = songA.toUTF8 ∨ bytes = songC.toUTF8) _ :=
    reachable_served RosuPp.unconverting noFiles (some (contentSource songC)) rfl (Or.inr rfl) 1
  have hsent : ∀ bytes, requestBytes noFiles taikoDifficulty.source = .ok bytes →
      bytes = songA.toUTF8 ∨ bytes = songC.toUTF8 :=
    fun bytes h => Or.inl (Except.ok.inj h).symm
  have hsource : taikoDifficulty.source = taikoStrains.source := rfl
  have hmode : taikoDifficulty.mode = taikoStrains.mode := rfl
  have hflags : taikoDifficulty.settings.bind (·.mods) = taikoStrains.settings.bind (·.mods) := rfl
  have herr : (taikoDifficulty.run RosuPp.unconverting Plotting.blank noFiles
      (parseBeatmapCached RosuPp.unconverting songA.toUTF8 (.new 1)).2).1
        = .error .conversion := by
    rw [taikoDifficulty.run_coherent _ _ _ hids (hreachA.coherent hids) hsent]
    rfl
  refine ⟨_, (parseBeatmapCached RosuPp.unconverting songC.toUTF8 (.new 1)).2, ?_, ?_, herr, ?_⟩
  · -- the first cache holds the song ...
    rw [parseBeatmapCached_parsed _ parseBeatmapId_songA (BeatmapCache.lookup_new 1 1) rfl]
    rfl
  · -- ... and the second one holds another
    rw [parseBeatmapCached_parsed _ parseBeatmapId_songC (BeatmapCache.lookup_new 1 2) rfl]
    rfl
  · rcases endpoints_fail_alike RosuPp.unconverting Plotting.blank noFiles hids hreachA hreachC
      hsent hsource hmode hflags herr with herr' | ⟨req, hreq, _⟩
    · exact herr'
    · cases hreq

/-! ## The mode of an answer -/

/-- The mode the series belong to. -/
def StrainSeries.mode : StrainSeries → Proto.GameMode
  | .osu .. => .osu
  | .taiko .. => .taiko
  | .catch_ _ => .catch_
  | .mania _ => .mania

/-- A strain response names the mode of its series. -/
theorem strainsToProto_mode (strains : Strains) :
    (strainsToProto strains).mode = strains.series.mode.toI32 := by
  unfold strainsToProto
  cases strains.series with
  | osu aim aimNoSliders speed flashlight => rfl
  | taiko color reading rhythm stamina singleColorStamina => rfl
  | catch_ movement => rfl
  | mania strains => rfl

/-- The library calculates in the mode it is asked for: a conversion answers a map of its target
    mode, attributes and strains are of the mode of their map, and a performance is of the mode of
    its attributes. -/
structure KeepsModes : Prop where
  converted : ∀ map target mods map', rosu.convertMut map target mods = .ok map' →
    (rosu.data map').mode = target
  attributes : ∀ d map, (rosu.calculate d map).mode = modeToProto (rosu.data map).mode
  strains : ∀ d map, (rosu.strains d map).series.mode = modeToProto (rosu.data map).mode
  performance : ∀ p, (rosu.calculatePerformance p).mode = p.attributes.mode

/-- The mode an answer names, where it names one. -/
def Endpoint.answerMode : (e : Endpoint) → e.Answer GD GP → Option Int32
  | difficulty _, resp => some resp.mode
  | performance _, resp => some resp.mode
  | strains _, resp => some resp.mode
  | strainGraph _, _ => none
  | gradualDifficulty _, _ => none
  | gradualPerformance _, _ => none

/-- Settings and score parameters leave the attributes of a performance alone. -/
theorem buildPerformance_attributes (attributes : DifficultyAttributes)
    (settings : Option DifficultySettings) (score : Option Proto.ScoreParams) :
    (installed score (fun score perf => applyScoreParams perf score)
      (installed settings (fun s perf => Calculator.applyPerformanceSettings rosu perf s)
        (Performance.new rosu attributes))).attributes = attributes := by
  have hsettings : (installed settings
      (fun s perf => Calculator.applyPerformanceSettings rosu perf s)
      (Performance.new rosu attributes)).attributes = attributes := by
    cases settings with
    | none => rfl
    | some s =>
      show (Calculator.applyPerformanceSettings rosu (Performance.new rosu attributes) s).attributes
        = _
      rw [applyPerformanceSettings_new]
      rfl
  cases score with
  | none => exact hsettings
  | some score =>
    show (applyScoreParams _ score).attributes = _
    rw [applyScoreParams_eq]
    exact hsettings

variable {rosu} in
/-- An answer names the mode of the map it is computed from. -/
theorem Endpoint.compute_mode (hmodes : KeepsModes rosu) {e : Endpoint} {d : Difficulty Mods}
    {map : Map} {answer : e.Answer GD GP} (h : e.compute rosu plot d map = .ok answer) {m : Int32}
    (hm : e.answerMode answer = some m) : m = (modeToProto (rosu.data map).mode).toI32 := by
  cases e with
  | difficulty req =>
    cases h
    cases hm
    exact congrArg Proto.GameMode.toI32 (hmodes.attributes d map)
  | performance req =>
    cases h
    cases hm
    refine congrArg Proto.GameMode.toI32 ?_
    rw [hmodes.performance, buildPerformance_attributes, hmodes.attributes]
  | strains req =>
    cases h
    cases hm
    rw [strainsToProto_mode, hmodes.strains]
  | strainGraph req => cases hm
  | gradualDifficulty req => cases hm
  | gradualPerformance req => cases hm

/-- The two mode enumerations are translated back and forth. -/
theorem protoToMode_eq_some {mode : Proto.GameMode} {target : GameMode}
    (h : protoToMode mode = some target) : modeToProto target = mode := by
  cases mode with
  | unspecified => cases h
  | osu => cases h; rfl
  | taiko => cases h; rfl
  | catch_ => cases h; rfl
  | mania => cases h; rfl

variable {rosu} in
/-- A converted map is of the mode that was asked for, or the map itself. -/
theorem convertWith_mode (hmodes : KeepsModes rosu) {mode : Proto.GameMode} {mods : Mods}
    {map map' : Map} (h : convertWith rosu mode mods map = .ok map') :
    (mode ≠ .unspecified → modeToProto (rosu.data map').mode = mode) ∧
      (mode = .unspecified → map' = map) := by
  unfold convertWith at h
  cases htarget : protoToMode mode with
  | none =>
    rw [htarget] at h
    cases h
    refine ⟨fun hmode => absurd htarget ?_, fun _ => rfl⟩
    cases mode <;> simp_all [protoToMode]
  | some target =>
    rw [htarget] at h
    have hmode := protoToMode_eq_some htarget
    refine ⟨fun _ => ?_, ?_⟩
    · simp only at h
      split at h
      · -- the map is of the mode already
        rename_i heq
        cases h
        rw [heq, hmode]
      · cases hconv : rosu.convertMut map target mods with
        | error _ =>
          rw [hconv] at h
          cases h
        | ok converted =>
          rw [hconv] at h
          cases h
          rw [hmodes.converted map target mods map' hconv, hmode]
    · rintro rfl
      cases htarget

/-- **The mode of an answer** is the one that was asked for, or where none was, the one that
    `GetBeatmapInfo` shows for the beatmap.  The two caches are ones that requests with bytes in
    `sent` have left, among which the same id means the same beatmap. -/
theorem answers_name_the_mode {sent : ByteArray → Prop} {c c' : BeatmapCache Map}
    (hmodes : KeepsModes rosu) (hids : IdsDecide rosu sent) (hreach : Reachable rosu sent c)
    (hreach' : Reachable rosu sent c') {e : Endpoint}
    (hsent : ∀ bytes, requestBytes fs e.source = .ok bytes → sent bytes) {answer : e.Answer GD GP}
    (hok : (e.run rosu plot fs c).1 = .ok answer) {m : Int32}
    (hm : e.answerMode answer = some m) :
    (e.mode ≠ .unspecified → m = e.mode.toI32) ∧
      (e.mode = .unspecified → ∃ info,
        (Calculator.beatmapInfo rosu fs { beatmap := e.source } c').1 = .ok info ∧
        m = info.mode) := by
  rw [e.run_coherent rosu plot fs hids (hreach.coherent hids) hsent] at hok
  obtain ⟨map', hconv, hcompute⟩ := bind_eq_ok hok
  obtain ⟨map, hload, hconvert⟩ := bind_eq_ok hconv
  obtain ⟨hasked, hown⟩ := convertWith_mode hmodes hconvert
  have hmode := Endpoint.compute_mode plot hmodes hcompute hm
  refine ⟨fun hspecified => by rw [hmode, hasked hspecified], fun hunspecified => ?_⟩
  refine ⟨beatmapToProto rosu map, ?_, ?_⟩
  · -- `GetBeatmapInfo` loads the same map
    show (Except.bind (Calculator.loadBeatmap rosu fs e.source c').1 _) = _
    rw [loadBeatmap_coherent rosu fs hids (hreach'.coherent hids) hsent, hload]
    rfl
  · -- and shows its mode
    rw [hmode, hown hunspecified]
    rfl

/-- A library that calculates in whatever mode it is asked for: a map is its text and its mode. -/
def RosuPp.moded : RosuPp (ByteArray × GameMode) UInt32 Unit Unit where
  fromBytes := fun bytes => .ok (bytes, .osu)
  checkSuspicion := fun _ => .ok ()
  data := fun map => { BeatmapData.standard with mode := map.2 }
  convertMut := fun map target _ => .ok (map.1, target)
  modsDefault := 0
  modsOfBits := id
  parseMods := fun _ => none
  calculate := fun _ map =>
    match map.2 with
    | .osu => .ofCombo 0
    | .taiko =>
      .taiko { stamina := 0, rhythm := 0, color := 0, reading := 0, greatHitWindow := 0
               okHitWindow := 0, monoStaminaFactor := 0, isConvert := true, stars := 0
               maxCombo := 0 }
    | .catch_ =>
      .catch_ { ar := 0, nFruits := 0, nDroplets := 0, nTinyDroplets := 0, isConvert := true
                stars := 0, maxCombo := 0 }
    | .mania =>
      .mania { nObjects := 0, nHoldNotes := 0, isConvert := true, stars := 0, maxCombo := 0 }
  strains := fun _ map =>
    { sectionLen := 400
      series := match map.2 with
        | .osu => .osu [] [] [] []
        | .taiko => .taiko [] [] [] [] []
        | .catch_ => .catch_ []
        | .mania => .mania [] }
  gradualDifficulty := fun _ _ => ()
  nextDifficulty := fun _ => (none, ())
  gradualPerformance := fun _ _ => ()
  nextPerformance := fun _ _ => (none, ())
  calculatePerformance := RosuPp.sample.calculatePerformance

/-- It keeps what it promises. -/
theorem keepsModes_moded : KeepsModes RosuPp.moded := by
  refine ⟨?_, ?_, ?_, ?_⟩
  · intro map target mods map' h
    cases h
    rfl
  · rintro d ⟨bytes, _ | _ | _ | _⟩ <;> rfl
  · rintro d ⟨bytes, _ | _ | _ | _⟩ <;> rfl
  · rintro ⟨_ | _ | _ | _, _⟩ <;> rfl

/-- The theorem at this calculation. -/
theorem answers_name_the_mode_taiko :
    ∃ answer, (taikoDifficulty.run RosuPp.moded Plotting.blank noFiles (.new 1)).1 = .ok answer ∧
      ∀ m, taikoDifficulty.answerMode answer = some m → m = 2 := by
  have hids : IdsDecide RosuPp.moded fun bytes => bytes = songA.toUTF8 := idsDecide_single _ _
  have hsent : ∀ bytes, requestBytes noFiles taikoDifficulty.source = .ok bytes →
      bytes = songA.toUTF8 := fun bytes h => (Except.ok.inj h).symm
  have hok : ∃ answer, (taikoDifficulty.run RosuPp.moded Plotting.blank noFiles (.new 1)).1
      = .ok answer := by
    rw [taikoDifficulty.run_coherent _ _ _ hids (BeatmapCache.Coherent.new 1) hsent]
    exact ⟨_, rfl⟩
  obtain ⟨answer, hok⟩ := hok
  refine ⟨answer, hok, fun m hm => ?_⟩
  exact (answers_name_the_mode RosuPp.moded Plotting.blank noFiles keepsModes_moded hids
    (reachable_new _ 1) (reachable_new _ 1) hsent hok hm).1 (by decide)

/-! ## Performance contains difficulty -/

/-- The difficulty attributes a performance carries. -/
def PerformanceAttributes.difficulty : PerformanceAttributes → DifficultyAttributes
  | .osu a => .osu a.difficulty
  | .taiko a => .taiko a.difficulty
  | .catch_ a => .catch_ a.difficulty
  | .mania a => .mania a.difficulty

/-- What a performance response says about difficulty. -/
def difficultyPart (resp : PerformanceResponse) : DifficultyResponse where
  mode := resp.mode
  stars := resp.stars
  maxCombo := resp.maxCombo
  attributes := resp.attributes.bind difficultyOfPerf

/-- It is what a difficulty response says of the same attributes. -/
theorem difficultyPart_performanceToProto (attrs : PerformanceAttributes) (cs : F64) :
    difficultyPart (performanceToProto attrs cs) = difficultyToProto attrs.difficulty cs := by
  cases attrs with
  | osu a => rfl
  | taiko a => rfl
  | catch_ a => rfl
  | mania a => rfl

/-- The difficulty request with the beatmap, the mode and the settings of a performance
    request. -/
def difficultyRequest (req : PerformanceRequest) : DifficultyRequest :=
  { beatmap := req.beatmap, mode := req.mode, settings := req.difficultySettings }

/-- **A performance contains its difficulty.**  What `CalculatePerformance` says about difficulty
    is what `CalculateDifficulty` answers to the same beatmap, mode and settings, error for
    error and whatever the score parameters.  The two caches are ones that requests with bytes
    in `sent` have left, among which the same id means the same beatmap. -/
theorem performance_contains_difficulty {sent : ByteArray → Prop} {c c' : BeatmapCache Map}
    (hcarries : ∀ p, (rosu.calculatePerformance p).difficulty = p.attributes)
    (hids : IdsDecide rosu sent) (hreach : Reachable rosu sent c) (hreach' : Reachable rosu sent c')
    {req : PerformanceRequest}
    (hsent : ∀ bytes, requestBytes fs req.beatmap = .ok bytes → sent bytes) :
    (Calculator.performance rosu fs req c).1.map difficultyPart =
      (Calculator.difficulty rosu fs (difficultyRequest req) c').1 := by
  have hperf := (Endpoint.performance req).run_coherent rosu Plotting.blank fs hids
    (hreach.coherent hids) hsent
  have hdiff := (Endpoint.difficulty (difficultyRequest req)).run_coherent rosu Plotting.blank fs
    hids (hreach'.coherent hids) hsent
  have hmap : (Endpoint.performance req).converted rosu fs =
      (Endpoint.difficulty (difficultyRequest req)).converted rosu fs :=
    Endpoint.converted_congr rosu fs rfl rfl rfl
  show ((Endpoint.performance req).run rosu Plotting.blank fs c).1.map difficultyPart =
    ((Endpoint.difficulty (difficultyRequest req)).run rosu Plotting.blank fs c').1
  rw [hperf, hdiff, hmap]
  cases (Endpoint.difficulty (difficultyRequest req)).converted rosu fs with
  | error err => rfl
  | ok map =>
    show Except.ok (difficultyPart (performanceToProto _ _)) = Except.ok (difficultyToProto _ _)
    rw [difficultyPart_performanceToProto, hcarries, buildPerformance_attributes]
    rfl

/-- The theorem at a play with one miss. -/
theorem performance_contains_difficulty_song :
    (Calculator.performance RosuPp.sample noFiles
        { beatmap := some (contentSource songA), mode := none, difficultySettings := none
          score := some { misses := some 1 } } (.new 2)).1.map difficultyPart =
      (Calculator.difficulty RosuPp.sample noFiles
        { beatmap := some (contentSource songA), mode := none, settings := none } (.new 1)).1 := by
  have hids : IdsDecide RosuPp.sample fun bytes => bytes = songA.toUTF8 := idsDecide_single _ _
  have hcarries : ∀ p, (RosuPp.sample.calculatePerformance p).difficulty = p.attributes := by
    rintro ⟨_ | _ | _ | _, _⟩ <;> rfl
  exact performance_contains_difficulty RosuPp.sample noFiles hcarries hids (reachable_new _ 2)
    (reachable_new _ 1) fun bytes h => (Except.ok.inj h).symm

end PpService
