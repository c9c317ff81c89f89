/-
  `src/service/graph.rs`: the strain graph.

  `GraphStrains.new` computes the strains of a map under the given mods and resamples every
  series to `newStrainCount` points; `renderStrainGraph` draws them.  The resampling itself and
  the drawing are the `Plotting` parameter; which series, points and bounds reach it is the
  code of this file.

  Three things are the code's own: which length stands for all series (`StrainSeries.count`), how
  the slider part of the aim is made (`sliderAim`), and where the points stand
  (`drawModeStrains`, with a factor taken from the number of sections before the
  interpolation).
-/
import PpService.Convert

namespace PpService

variable {Map Mods GD GP : Type} (rosu : RosuPp Map Mods GD GP) (plot : Plotting)

/-- `NEW_STRAIN_COUNT`. -/
def newStrainCount : Nat := 200

/-- `DEFAULT_WIDTH`. -/
def defaultWidth : UInt32 := 900

/-- `DEFAULT_HEIGHT`. -/
def defaultHeight : UInt32 := 250

/-- `f64::EPSILON`. -/
def f64Epsilon : F64 := 1 / 2 ^ 52

/-- Smoothed strain data ready for graphing. -/
structure GraphStrains where
  /-- The interpolated strains. -/
  strains : Strains
  /-- The number of sections before the interpolation. -/
  strainsCount : Nat

/-- The length of the series that stands for all of them. -/
def StrainSeries.count : StrainSeries → Nat
  | .osu aim _ _ _ => aim.length
  | .taiko color _ _ _ _ => color.length
  | .catch_ movement => movement.length
  | .mania strains => strains.length

/-- The closure `create_curve`. -/
def createCurve (sectionLen : F64) (strains : List F64) : Except Error (List F64) :=
  match strains with
  -- a mode may leave a series empty while it has sections
  | [] => .ok (List.replicate newStrainCount 0)
  -- no curve goes through a single element
  | [strain] => .ok (List.replicate newStrainCount strain)
  | strains =>
    (plot.linear strains sectionLen newStrainCount).mapError fun e =>
      .graphRendering ("Failed to build curve: " ++ e)

/-- `aim_no_sliders` becomes the slider part of `aim`, over the common indices; what is longer
    than `aim` stays. -/
def sliderAim (aim aimNoSliders : List F64) : List F64 :=
  List.zipWith (fun aimVal noSlider => aimVal - noSlider) aim aimNoSliders
    ++ aimNoSliders.drop aim.length

/-- The `match &mut strains` of `GraphStrains::new`: every series through `create_curve`. -/
def resample (strains : Strains) : Except Error Strains := do
  let curve := createCurve plot strains.sectionLen
  match strains.series with
  | .osu aim aimNoSliders speed flashlight =>
    -- both curves come from the raw series
    let noSliders := sliderAim aim aimNoSliders
    let aim ← curve aim
    let aimNoSliders ← curve noSliders
    let speed ← curve speed
    let flashlight ← curve flashlight
    return { strains with series := .osu aim aimNoSliders speed flashlight }
  | .taiko color reading rhythm stamina singleColorStamina =>
    let color ← curve color
    let rhythm ← curve rhythm
    let stamina ← curve stamina
    let singleColorStamina ← curve singleColorStamina
    let reading ← curve reading
    return { strains with series := .taiko color reading rhythm stamina singleColorStamina }
  | .catch_ movement =>
    let movement ← curve movement
    return { strains with series := .catch_ movement }
  | .mania strains' =>
    let strains' ← curve strains'
    return { strains with series := .mania strains' }

/-- The configuration `GraphStrains::new` runs the library under:
    `Difficulty::new().mods(mods)`. -/
def graphDifficulty (mods : Mods) : Difficulty Mods := { Difficulty.new rosu with mods }

/-- What `GraphStrains::new` does with the strains it has computed. -/
def GraphStrains.ofStrains (strains : Strains) : Except Error GraphStrains :=
  let strainsCount := strains.series.count
  -- a map without sections has no graph
  if strainsCount = 0 then .error .noStrainData
  else (resample plot strains).map fun strains => { strains, strainsCount }

/-- `GraphStrains::new`: of the settings of a request only the mods have come this far. -/
def GraphStrains.new (map : Map) (mods : Mods) : Except Error GraphStrains :=
  GraphStrains.ofStrains plot (rosu.strains (graphDifficulty rosu mods) map)

/-- `calculate_max_strain`: the series are zipped, so it sees them up to the shortest one. -/
def calculateMaxStrain (strains : Strains) : F64 :=
  match strains.series with
  | .osu aim aimNoSliders speed flashlight =>
    (((aim.zip aimNoSliders).zip speed).zip flashlight).foldl
      (fun m p => max (max (max (max m p.1.1.1) p.1.1.2) p.1.2) p.2) 0
  | .taiko color reading rhythm stamina singleColorStamina =>
    ((((color.zip rhythm).zip stamina).zip singleColorStamina).zip reading).foldl
      (fun m p => max (max (max (max (max m p.1.1.1.1) p.1.1.1.2) p.1.1.2) p.1.2) p.2) 0
  | .catch_ movement => movement.foldl max 0
  | .mania strains => strains.foldl max 0

/-- `draw_series`: the points of one line. -/
def seriesPoints (factor : F64) (strains : List F64) : List (F64 × F64) :=
  strains.mapIdx fun i strain => (i * factor, strain)

/-- `draw_mode_strains`: the lines of the graph, in the order they are drawn. -/
def drawModeStrains (g : GraphStrains) : List GraphSeries :=
  let origCount : F64 := g.strainsCount
  let newCount : F64 := g.strains.series.count
  let factor := g.strains.sectionLen * origCount / newCount
  let line (label : String) (strains : List F64) : GraphSeries :=
    { label, points := seriesPoints factor strains }
  match g.strains.series with
  | .osu aim aimNoSliders speed flashlight =>
    [line "Aim" aim, line "Aim (Sliders)" aimNoSliders, line "Speed" speed,
      line "Flashlight" flashlight]
  | .taiko color reading rhythm stamina singleColorStamina =>
    [line "Stamina" stamina, line "Stamina (SC)" singleColorStamina, line "Color" color,
      line "Rhythm" rhythm, line "Reading" reading]
  | .catch_ movement => [line "Movement" movement]
  | .mania strains => [line "Strain" strains]

/-- `last_timestamp`, where the axis ends: two of the 200 points before the end of the map. -/
def lastTimestamp (g : GraphStrains) : F64 :=
  ((newStrainCount - 2 : Nat) : F64) * g.strains.sectionLen * (g.strainsCount : F64)
    / (newStrainCount : F64)

/-- `render_strain_graph`: the canvas is not touched before there is something to draw. -/
def renderStrainGraph (map : Map) (mods : Mods) (width height : UInt32)
    (background : Option ByteArray) : Except Error ByteArray := do
  let w := if width = 0 then defaultWidth else width
  let h := if height = 0 then defaultHeight else height
  let strains ← GraphStrains.new rosu plot map mods
  let last := lastTimestamp strains
  let maxStrain := calculateMaxStrain strains.strains
  -- strains that are all zero are no data either
  if maxStrain ≤ f64Epsilon then
    throw .noStrainData
  (plot.draw w h background (min last 1, last) maxStrain (drawModeStrains strains)).mapError
    Error.graphRendering

end PpService
