/-
  THE DRAWING of the strain graph: what `render_strain_graph` asks of the canvas.

  1. **The code**, operation by operation on a `Canvas`: background, axes, then for each series
     its line and its legend entry (`renderStrainGraphOn`).  Every failure is a
     `GraphRendering`, so a `Drawing` carries the texts only.  The parameter `Plotting` of the
     other modules is an instance (`renderStrainGraphOn_eq`): what they prove holds of the
     drawing on any canvas.

  2. **The script**: loop, legend positions and early returns come down to one list of steps,
     done in order up to the first that fails (`drawGraph_eq_script`).

  The script is obtained without executing anything: each function of the code follows its own
  steps (`follows_drawBackground`, `follows_drawPoints`, `follows_drawLegendItem`), the loop over
  the lines follows its rounds, and what is measured on the way is fixed by the text alone.
-/
import PpService.StrainGraph
import PpService.Lib.Script

namespace PpService

variable {Map Mods GD GP : Type} (rosu : RosuPp Map Mods GD GP)

/-! ## The canvas -/

/-- The colours in use, those with a name in `plotters` by name. -/
inductive Color where
  | black | red | green | blue | yellow | cyan | magenta
  | rgb (r g b : UInt8)
  deriving DecidableEq

/-- `skia_safe::BlendMode`, as far as it is used. -/
inductive BlendMode where
  | lighten

/-- The picture and the two parts `split_vertically` makes of it. -/
inductive Area where
  | root | legend | graph

/-- A pixel of an area. -/
abbrev Pixel := Int32 × Int32

/-- What the code draws.  The styles of text and mesh are the same wherever they are used. -/
inductive DrawOp where
  | fill (area : Area) (color : Color)
  | rectangle (area : Area) (corner corner' : Pixel) (color : Color) (opacity : F64)
  /-- `build_cartesian_2d`, over `x_label_area_size` pixels for the labels. -/
  | chart (area : Area) (xLabelAreaSize : Nat) (x y : F64 × F64)
  | mesh (xLabels : Nat) (xLabelFormatter : F64 → String)
  /-- `AreaSeries` with its border. -/
  | areaSeries (points : List (F64 × F64)) (baseline : F64) (color : Color) (opacity : F64)
      (strokeWidth : Nat)
  | text (area : Area) (text : String) (position : Pixel)

/-- The drawing crates: what they do with each operation, or the text of their error. -/
structure Canvas where
  /-- A picture, with what the backend remembers about it. -/
  Surface : Type
  /-- `surfaces::raster_n32_premul`. -/
  surface : (w h : Int32) → Option Surface
  /-- Whether `image::load_from_memory` takes the bytes. -/
  decodes : ByteArray → Bool
  setBlendMode : Option BlendMode → Surface → Surface
  draw : DrawOp → Surface → Except String Surface
  /-- The corners of a text's box. -/
  layoutBox : String → Except String (Pixel × Pixel)
  /-- `image_snapshot().encode` as PNG. -/
  encode : Surface → Option ByteArray
  /-- `enterpolation`, as in `Plotting`. -/
  linear : (elements : List F64) → (distance : F64) → (n : Nat) → Except String (List F64)

/-- Work on a canvas that may fail with a `GraphRendering` text. -/
abbrev Drawing (canvas : Canvas) := StateT canvas.Surface (Except String)

variable (canvas : Canvas)

/-- An operation, and what `map_err` makes of its error. -/
def perform (op : DrawOp) (mapErr : String → String) : Drawing canvas Unit := fun s =>
  ((canvas.draw op s).mapError mapErr).map fun s => ((), s)

/-- The blend mode for what is drawn next; it cannot fail. -/
def setBlendMode (mode : Option BlendMode) : Drawing canvas Unit := fun s =>
  .ok ((), canvas.setBlendMode mode s)

/-- The corners of the box a text takes. -/
def layoutBox (text : String) (mapErr : String → String) : Drawing canvas (Pixel × Pixel) :=
  fun s => ((canvas.layoutBox text).mapError mapErr).map fun box => (box, s)

/-! ## The code -/

/-- `LEGEND_H`. -/
def legendH : UInt32 := 25

/-- A part of `LEGEND_H as f32`, cut to pixels by `as i32`. -/
def legendPart (part : F32) : Int32 := Int32.ofInt ((legendH.toNat : F32) * part).floor

/-- The dark green behind the graph. -/
def backgroundColor : Color := .rgb 19 43 33

/-- The image is decoded and resized, but not drawn yet. -/
def drawBackground (w h : UInt32) (background : Option ByteArray) : Drawing canvas Unit :=
  if background.any canvas.decodes then do
    perform canvas (.fill .root backgroundColor) id
    perform canvas (.rectangle .root (0, 0) (w.toInt32, h.toInt32) .black (75 / 100)) id
  else
    perform canvas (.fill .root backgroundColor) id

/-- `*timestamp as u64`: cut to a whole number, and to the range. -/
def timestampAsU64 (timestamp : F64) : Nat := min ⌊timestamp⌋₊ (2 ^ 64 - 1)

/-- `{:0>2}`. -/
def padSeconds (seconds : Nat) : String :=
  String.ofList (List.replicate (2 - seconds.repr.length) '0') ++ seconds.repr

/-- The closure `x_label_formatter`. -/
def xLabelFormatter (timestamp : F64) : String :=
  if |timestamp| < f64Epsilon then ""
  else
    let secs := timestampAsU64 timestamp / 1000
    (secs / 60).repr ++ ":" ++ padSeconds (secs % 60)

/-- `draw_series`, from the points on. -/
def drawPoints (points : List (F64 × F64)) (label : String) (color : Color) :
    Drawing canvas Unit := do
  setBlendMode canvas (some .lighten)
  perform canvas (.areaSeries points 0 color (20 / 100) 2) fun e =>
    "Failed to draw " ++ label ++ " series: " ++ e
  setBlendMode canvas none

/-- `draw_series`. -/
def drawSeries (strains : List F64) (label : String) (factor : F64) (color : Color) :
    Drawing canvas Unit :=
  drawPoints canvas (seriesPoints factor strains) label color

/-- `draw_legend_item`: it answers `legend_x` for the next one. -/
def drawLegendItem (label : String) (color : Color) (legendX : Int32) : Drawing canvas Int32 := do
  perform canvas
    (.rectangle .legend (legendX, legendPart (42 / 100)) (legendX + 16, legendPart (58 / 100))
      color 1)
    ("Failed to draw legend rect: " ++ ·)
  -- past the rectangle of 16 and a gap of 10
  let legendX := legendX + 26
  let ((minX, _), (maxX, maxY)) ← layoutBox canvas label ("Failed to get layout box: " ++ ·)
  let width := maxX - minX
  let textPos := (legendX, legendH.toInt32 - 8 - maxY)
  perform canvas (.text .legend label textPos) ("Failed to draw legend text: " ++ ·)
  return legendX + (width + 10)

/-- The macro `draw_line!`. -/
def drawLine (factor : F64) (legendX : Int32) (line : String × List F64 × Color) :
    Drawing canvas Int32 := do
  drawSeries canvas line.2.1 line.1 factor line.2.2
  drawLegendItem canvas line.1 line.2.2 legendX

/-- The uses of `draw_line!`, mode by mode. -/
def StrainSeries.drawLines : StrainSeries → List (String × List F64 × Color)
  | .osu aim aimNoSliders speed flashlight =>
    [("Aim", aim, .cyan), ("Aim (Sliders)", aimNoSliders, .green), ("Speed", speed, .red),
      ("Flashlight", flashlight, .magenta)]
  | .taiko color reading rhythm stamina singleColorStamina =>
    [("Stamina", stamina, .red), ("Stamina (SC)", singleColorStamina, .blue),
      ("Color", color, .yellow), ("Rhythm", rhythm, .cyan), ("Reading", reading, .green)]
  | .catch_ movement => [("Movement", movement, .cyan)]
  | .mania strains => [("Strain", strains, .magenta)]

/-- `draw_mode_strains`, with `legend_x` from 8 on. -/
def drawModeStrainsOn (g : GraphStrains) : Drawing canvas Unit := do
  let origCount : F64 := g.strainsCount
  let newCount : F64 := g.strains.series.count
  -- how far apart the resampled points stand on the axis
  let factor := g.strains.sectionLen * origCount / newCount
  let _ ← g.strains.series.drawLines.foldlM (drawLine canvas factor) 8
  return ()

/-- The block that draws on the surface; `lines` are drawn last. -/
def drawOn (w h : UInt32) (background : Option ByteArray) (x : F64 × F64) (maxStrain : F64)
    (lines : Drawing canvas Unit) : Drawing canvas Unit := do
  drawBackground canvas w h background
  perform canvas (.chart .graph 17 x (0, maxStrain)) id
  perform canvas (.mesh 10 xLabelFormatter) id
  lines

/-- `render_strain_graph` from the surface on. -/
def drawPng (w h : UInt32) (drawing : Drawing canvas Unit) : Except String ByteArray := do
  -- the backend may refuse the size
  let some surface := canvas.surface w.toInt32 h.toInt32
    | throw "Failed to create surface"
  let ((), surface) ← drawing.run surface
  let some pngBytes := canvas.encode surface
    | throw "Failed to encode PNG"
  return pngBytes

/-- The colour of a line, by its label. -/
def lineColor : String → Color
  | "Aim" | "Rhythm" | "Movement" => .cyan
  | "Aim (Sliders)" | "Reading" => .green
  | "Speed" | "Stamina" => .red
  | "Flashlight" | "Strain" => .magenta
  | "Stamina (SC)" => .blue
  | "Color" => .yellow
  | _ => .black

/-- A line that `Plotting.draw` is given. -/
def drawGraphSeries (legendX : Int32) (line : GraphSeries) : Drawing canvas Int32 := do
  drawPoints canvas line.points line.label (lineColor line.label)
  drawLegendItem canvas line.label (lineColor line.label) legendX

/-- The drawing as the other modules see it. -/
def Canvas.plotting : Plotting where
  linear := canvas.linear
  draw w h background x maxStrain lines :=
    drawPng canvas w h <| drawOn canvas w h background x maxStrain do
      let _ ← lines.foldlM (drawGraphSeries canvas) 8
      return ()

/-- `render_strain_graph` on a canvas. -/
def renderStrainGraphOn (map : Map) (mods : Mods) (width height : UInt32)
    (background : Option ByteArray) : Except Error ByteArray := do
  let w := if width = 0 then defaultWidth else width
  let h := if height = 0 then defaultHeight else height
  let strains ← GraphStrains.new rosu canvas.plotting map mods
  let last := lastTimestamp strains
  let maxStrain := calculateMaxStrain strains.strains
  if maxStrain ≤ f64Epsilon then
    throw .noStrainData
  (drawPng canvas w h (drawOn canvas w h background (min last 1, last) maxStrain
    (drawModeStrainsOn canvas strains))).mapError Error.graphRendering

/-- The lines are the series of the mode with the colours of their labels. -/
theorem drawLines_eq (s : StrainSeries) :
    s.drawLines = s.lines.map fun line => (line.1, line.2, lineColor line.1) := by
  cases s <;> rfl

/-- The loop draws what `draw_mode_strains` has put together. -/
theorem drawModeStrainsOn_eq (g : GraphStrains) :
    drawModeStrainsOn canvas g = do
      let _ ← (drawModeStrains g).foldlM (drawGraphSeries canvas) 8
      return () := by
  rw [drawModeStrains_eq, List.foldlM_map, drawModeStrainsOn, drawLines_eq, List.foldlM_map]
  rfl

/-- The drawing is an instance of the parameter `Plotting`. -/
theorem renderStrainGraphOn_eq (map : Map) (mods : Mods) (width height : UInt32)
    (background : Option ByteArray) :
    renderStrainGraphOn rosu canvas map mods width height background =
      renderStrainGraph rosu canvas.plotting map mods width height background := by
  simp only [renderStrainGraphOn, drawModeStrainsOn_eq]
  rfl

/-! ## The script -/

/-- One step of a drawing, with what `map_err` makes of its error. -/
inductive DrawStep where
  | draw (op : DrawOp) (mapErr : String → String)
  | blend (mode : Option BlendMode)
  | measure (text : String) (mapErr : String → String)

/-- What a step does to the picture; measuring leaves it alone. -/
def Canvas.step : DrawStep → canvas.Surface → Except String canvas.Surface
  | .draw op mapErr, s => (canvas.draw op s).mapError mapErr
  | .blend mode, s => .ok (canvas.setBlendMode mode s)
  | .measure text mapErr, s => ((canvas.layoutBox text).mapError mapErr).map fun _ => s

/-- The box of a text that has one. -/
def Canvas.boxOf (text : String) : Pixel × Pixel :=
  match canvas.layoutBox text with
  | .ok box => box
  | .error _ => ((0, 0), (0, 0))

/-- The width `draw_legend_item` takes from the box. -/
def Canvas.widthOf (text : String) : Int32 := (canvas.boxOf text).2.1 - (canvas.boxOf text).1.1

/-- A line of the graph and its entry in the legend, which starts at `left`. -/
structure LegendEntry where
  line : GraphSeries
  color : Color
  left : Int32

/-- Where the next entry starts. -/
def Canvas.next (left : Int32) (text : String) : Int32 := left + 26 + (canvas.widthOf text + 10)

/-- The steps of an entry: the line, blended, then the legend's rectangle and text. -/
def Canvas.entrySteps (e : LegendEntry) : List DrawStep :=
  [.blend (some .lighten),
    .draw (.areaSeries e.line.points 0 e.color (20 / 100) 2) fun err =>
      "Failed to draw " ++ e.line.label ++ " series: " ++ err,
    .blend none,
    .draw (.rectangle .legend (e.left, legendPart (42 / 100))
      (e.left + 16, legendPart (58 / 100)) e.color 1) ("Failed to draw legend rect: " ++ ·),
    .measure e.line.label ("Failed to get layout box: " ++ ·),
    .draw (.text .legend e.line.label
      (e.left + 26, legendH.toInt32 - 8 - (canvas.boxOf e.line.label).2.2))
      ("Failed to draw legend text: " ++ ·)]

/-- The entries of the legend from left to right. -/
def Canvas.entries : List GraphSeries → Int32 → List LegendEntry
  | [], _ => []
  | line :: rest, left =>
    ⟨line, lineColor line.label, left⟩ :: entries rest (canvas.next left line.label)

/-- The steps of the background: an image only darkens it. -/
def Canvas.backgroundSteps (w h : UInt32) (background : Option ByteArray) : List DrawStep :=
  if background.any canvas.decodes then
    [.draw (.fill .root backgroundColor) id,
      .draw (.rectangle .root (0, 0) (w.toInt32, h.toInt32) .black (75 / 100)) id]
  else [.draw (.fill .root backgroundColor) id]

/-- The steps of the axes. -/
def axesSteps (x : F64 × F64) (maxStrain : F64) : List DrawStep :=
  [.draw (.chart .graph 17 x (0, maxStrain)) id, .draw (.mesh 10 xLabelFormatter) id]

/-- All that is drawn, in order. -/
def Canvas.script (w h : UInt32) (background : Option ByteArray) (x : F64 × F64)
    (maxStrain : F64) (lines : List GraphSeries) : List DrawStep :=
  canvas.backgroundSteps w h background ++ axesSteps x maxStrain ++
    (canvas.entries lines 8).flatMap canvas.entrySteps

section

open Script (Follows follows_pure follows_map follows_foldlM)

variable {canvas}

/-- An operation is a step of its own. -/
theorem follows_perform (op : DrawOp) (mapErr : String → String) :
    Follows canvas.step (perform canvas op mapErr) [.draw op mapErr] () :=
  follows_map (DrawStep.draw op mapErr) ()

theorem follows_setBlendMode (mode : Option BlendMode) :
    Follows canvas.step (setBlendMode canvas mode) [.blend mode] () :=
  follows_map (DrawStep.blend mode) ()

/-- Measuring a text is a step too, and answers its box. -/
theorem follows_layoutBox (text : String) (mapErr : String → String) :
    Follows canvas.step (layoutBox canvas text mapErr) [.measure text mapErr]
      (canvas.boxOf text) := by
  intro s
  rw [Script.run_singleton, layoutBox, Canvas.step, Canvas.boxOf]
  cases canvas.layoutBox text <;> rfl

theorem follows_drawBackground (w h : UInt32) (background : Option ByteArray) :
    Follows canvas.step (drawBackground canvas w h background)
      (canvas.backgroundSteps w h background) () := by
  unfold drawBackground Canvas.backgroundSteps
  split
  · -- an image that decodes
    exact (follows_perform _ _).bind (follows_perform _ _)
  · exact follows_perform _ _

/-- A line is the first three steps of an entry. -/
theorem follows_drawPoints (points : List (F64 × F64)) (label : String) (color : Color) :
    Follows canvas.step (drawPoints canvas points label color)
      [.blend (some .lighten), .draw (.areaSeries points 0 color (20 / 100) 2) fun e =>
        "Failed to draw " ++ label ++ " series: " ++ e, .blend none] () :=
  (follows_setBlendMode _).bind ((follows_perform _ _).bind (follows_setBlendMode _))

/-- A legend item is the other three, and answers where the next one starts. -/
theorem follows_drawLegendItem (label : String) (color : Color) (left : Int32) :
    Follows canvas.step (drawLegendItem canvas label color left)
      [.draw (.rectangle .legend (left, legendPart (42 / 100)) (left + 16, legendPart (58 / 100))
          color 1) ("Failed to draw legend rect: " ++ ·),
        .measure label ("Failed to get layout box: " ++ ·),
        .draw (.text .legend label (left + 26, legendH.toInt32 - 8 - (canvas.boxOf label).2.2))
          ("Failed to draw legend text: " ++ ·)] (canvas.next left label) :=
  (follows_perform _ _).bind <| (follows_layoutBox _ _).bind <|
    (follows_perform _ _).bind (follows_pure _)

theorem follows_drawGraphSeries (left : Int32) (line : GraphSeries) :
    Follows canvas.step (drawGraphSeries canvas left line)
      (canvas.entrySteps ⟨line, lineColor line.label, left⟩) (canvas.next left line.label) :=
  (follows_drawPoints _ _ _).bind (follows_drawLegendItem _ _ _)

/-- The rounds of the loop are the entries of the legend, one after the other. -/
theorem rounds_eq_entries (lines : List GraphSeries) (left : Int32) :
    Script.rounds (fun left line => canvas.next left line.label)
      (fun left line => canvas.entrySteps ⟨line, lineColor line.label, left⟩) lines left =
        (canvas.entries lines left).flatMap canvas.entrySteps := by
  induction lines generalizing left with
  | nil => rfl
  | cons line rest ih =>
    rw [Script.rounds, ih, Canvas.entries, List.flatMap_cons]

/-- The block that draws follows the script. -/
theorem follows_drawOn (w h : UInt32) (background : Option ByteArray) (x : F64 × F64)
    (maxStrain : F64) (lines : List GraphSeries) :
    Follows canvas.step
      (drawOn canvas w h background x maxStrain do
        let _ ← lines.foldlM (drawGraphSeries canvas) 8
        return ())
      (canvas.script w h background x maxStrain lines) () := by
  have hfold := follows_foldlM (@follows_drawGraphSeries canvas) lines 8
  rw [rounds_eq_entries] at hfold
  -- the loop throws the last position away
  have hlines : Follows canvas.step (do
      let _ ← lines.foldlM (drawGraphSeries canvas) 8
      return ()) ((canvas.entries lines 8).flatMap canvas.entrySteps) () := by
    rw [← List.append_nil (List.flatMap _ _)]
    exact hfold.bind (follows_pure ())
  rw [Canvas.script, List.append_assoc]
  refine (follows_drawBackground w h background).bind ?_
  exact (follows_perform (.chart .graph 17 x (0, maxStrain)) id).bind <|
    (follows_perform (.mesh 10 xLabelFormatter) id).bind hlines

end

/-- What becomes of the surface: the script, then the PNG. -/
def Canvas.pngOf (script : List DrawStep) (surface : canvas.Surface) : Except String ByteArray :=
  (Script.run canvas.step script surface).bind fun surface =>
    (canvas.encode surface).elim (.error "Failed to encode PNG") .ok

/-- The script on a new surface of this size. -/
def Canvas.paint (w h : UInt32) (script : List DrawStep) : Except String ByteArray :=
  (canvas.surface w.toInt32 h.toInt32).elim (.error "Failed to create surface")
    (canvas.pngOf script)

/-- The drawing is the script on a new surface. -/
theorem drawGraph_eq_script (w h : UInt32) (background : Option ByteArray) (x : F64 × F64)
    (maxStrain : F64) (lines : List GraphSeries) :
    canvas.plotting.draw w h background x maxStrain lines =
      canvas.paint w h (canvas.script w h background x maxStrain lines) := by
  show drawPng canvas w h _ = _
  unfold drawPng Canvas.paint
  cases canvas.surface w.toInt32 h.toInt32 with
  | none => rfl
  | some surface =>
    show (drawOn canvas w h background x maxStrain _ surface).bind _ = _
    rw [follows_drawOn w h background x maxStrain lines surface]
    show _ = (Script.run canvas.step _ surface).bind _
    cases Script.run canvas.step (canvas.script w h background x maxStrain lines) surface with
    | error e => rfl
    | ok surface =>
      show _ = (canvas.encode surface).elim _ _
      cases hpng : canvas.encode surface with
      | none => simp [Except.map, Except.bind, hpng]; rfl
      | some png => simp [Except.map, Except.bind, hpng]; rfl

end PpService
