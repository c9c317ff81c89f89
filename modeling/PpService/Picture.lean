/-
  THE PICTURE: what can be read off a strain graph, and what a failed one says.

  A finished graph has every line of the map's mode, and a legend that tells them apart: the
  entries stand next to each other, which is an invariant of `legend_x` over the loop, and no
  two lines of a mode have one colour (`finished_graph`).  A label of the time axis reads back
  as the second it stands at (`axis_labels_read_back`).  A graph that cannot be drawn says what
  the canvas refused, once everything before it had been drawn (`rendering_error_iff`).

  The canvas is any canvas that measures texts sensibly (`Canvas.MeasuresText`): a box is not
  inside out and not absurdly wide.  That keeps `legend_x`, an `i32`, from wrapping for the at
  most five entries of a mode (`legendRoom_le`, `entries_apart`).
-/
import PpService.Drawing
import PpService.Peaks
import Mathlib.Algebra.Order.Floor.Semifield

namespace PpService

variable {Map Mods GD GP : Type} (rosu : RosuPp Map Mods GD GP) (canvas : Canvas)

/-! ## The legend -/

/-- A text's box is not inside out, and no character of size 14 is wider than 1000 pixels. -/
def Canvas.MeasuresText : Prop := ∀ text box, canvas.layoutBox text = .ok box →
  box.1.1.toInt ≤ box.2.1.toInt ∧ box.2.1.toInt - box.1.1.toInt ≤ 1000 * text.length

/-- The pixel after an entry's text. -/
def Canvas.entryEnd (e : LegendEntry) : Int :=
  e.left.toInt + 26 + (canvas.widthOf e.line.label).toInt

/-- The one entry ends ten pixels before the other starts. -/
def Canvas.Before (e e' : LegendEntry) : Prop := canvas.entryEnd e + 10 ≤ e'.left.toInt

/-- The pixels that the entries may need. -/
def legendRoom (lines : List GraphSeries) : Nat :=
  (lines.map fun line => 36 + 1000 * line.label.length).sum

section

variable {canvas}

/-- In machine words the width is what it should be: nothing has wrapped. -/
theorem Canvas.MeasuresText.widthOf_bounds (h : canvas.MeasuresText) (text : String)
    (hlen : 1000 * text.length < 2 ^ 31) :
    0 ≤ (canvas.widthOf text).toInt ∧ (canvas.widthOf text).toInt ≤ 1000 * text.length := by
  have hbox : (canvas.boxOf text).1.1.toInt ≤ (canvas.boxOf text).2.1.toInt ∧
      (canvas.boxOf text).2.1.toInt - (canvas.boxOf text).1.1.toInt ≤ 1000 * text.length := by
    unfold Canvas.boxOf
    cases hb : canvas.layoutBox text with
    | ok box => exact h text box hb
    | error e => exact ⟨le_rfl, by simp⟩
  have hsub : (canvas.widthOf text).toInt =
      (canvas.boxOf text).2.1.toInt - (canvas.boxOf text).1.1.toInt := by
    rw [Canvas.widthOf, Int32.toInt_sub, Int.bmod_eq_of_le] <;> omega
  omega

/-- As long as there is room, the next entry starts where it should: the sum of the position, the
    rectangle, the gaps and the width is no larger than the legend's room, so it does not wrap. -/
theorem toInt_next {left : Int32} (text : String) (h0 : 0 ≤ left.toInt)
    (hw : 0 ≤ (canvas.widthOf text).toInt)
    (hroom : left.toInt + 36 + (canvas.widthOf text).toInt < 2 ^ 31) :
    (canvas.next left text).toInt = left.toInt + 36 + (canvas.widthOf text).toInt := by
  have h26 : (left + 26).toInt = left.toInt + 26 := by
    have : (26 : Int32).toInt = 26 := rfl
    rw [Int32.toInt_add, Int.bmod_eq_of_le] <;> omega
  have h10 : (canvas.widthOf text + 10).toInt = (canvas.widthOf text).toInt + 10 := by
    have : (10 : Int32).toInt = 10 := rfl
    rw [Int32.toInt_add, Int.bmod_eq_of_le] <;> omega
  rw [Canvas.next, Int32.toInt_add, h26, h10, Int.bmod_eq_of_le] <;> omega

/-- The entries stand apart, none further left than the first.  The induction is on the lines, with
    the position as it moves and the room that is left. -/
theorem entries_apart (h : canvas.MeasuresText) {lines : List GraphSeries} {left : Int32}
    (h0 : 0 ≤ left.toInt) (hroom : left.toInt + legendRoom lines < 2 ^ 31) :
    (canvas.entries lines left).Pairwise canvas.Before ∧
      ∀ e ∈ canvas.entries lines left, left.toInt ≤ e.left.toInt := by
  induction lines generalizing left with
  | nil => exact ⟨.nil, fun e he => (List.not_mem_nil he).elim⟩
  | cons line rest ih =>
    have hcons : legendRoom (line :: rest) = 36 + 1000 * line.label.length + legendRoom rest := by
      rw [legendRoom, List.map_cons, List.sum_cons, legendRoom]
    obtain ⟨hw0, hw⟩ := h.widthOf_bounds line.label (by omega)
    have hnext := toInt_next line.label h0 hw0 (by omega)
    have hleft0 : 0 ≤ (canvas.next left line.label).toInt := by omega
    obtain ⟨hrest, hleft⟩ := ih hleft0 (by omega)
    refine ⟨List.pairwise_cons.mpr ⟨fun e he => ?_, hrest⟩, fun e he => ?_⟩
    · -- the first entry, before all the others
      have := hleft e he
      show left.toInt + 26 + (canvas.widthOf line.label).toInt + 10 ≤ e.left.toInt
      omega
    · -- none is further left than the first
      rcases List.mem_cons.mp he with rfl | he
      · exact le_rfl
      · have := hleft e he
        omega

/-- There is one entry for each line, in the same order. -/
theorem entries_line (lines : List GraphSeries) (left : Int32) :
    (canvas.entries lines left).map LegendEntry.line = lines := by
  induction lines generalizing left with
  | nil => rfl
  | cons line rest ih => rw [Canvas.entries, List.map_cons, ih]

/-- An entry has the colour of its label. -/
theorem entries_color (lines : List GraphSeries) (left : Int32) :
    (canvas.entries lines left).map LegendEntry.color =
      (lines.map GraphSeries.label).map lineColor := by
  induction lines generalizing left with
  | nil => rfl
  | cons line rest ih => rw [Canvas.entries, List.map_cons, ih, List.map_cons, List.map_cons]

end

/-- The labels of each mode. -/
def modeLabels : List (List String) :=
  [["Aim", "Aim (Sliders)", "Speed", "Flashlight"],
    ["Stamina", "Stamina (SC)", "Color", "Rhythm", "Reading"], ["Movement"], ["Strain"]]

/-- A graph has the labels of its mode. -/
theorem labels_mem_modeLabels (g : GraphStrains) :
    (drawModeStrains g).map GraphSeries.label ∈ modeLabels := by
  rw [drawModeStrains_eq, List.map_map]
  cases g.strains.series <;> simp [modeLabels, StrainSeries.lines]

/-- No two lines of a mode have one colour. -/
theorem lineColors_nodup (g : GraphStrains) :
    (((drawModeStrains g).map GraphSeries.label).map lineColor).Nodup := by
  have hmodes : ∀ labels ∈ modeLabels, (labels.map lineColor).Nodup := by decide
  exact hmodes _ (labels_mem_modeLabels g)

/-- The legend of every mode has room. -/
theorem legendRoom_le (g : GraphStrains) : legendRoom (drawModeStrains g) ≤ 40000 := by
  have hmodes : ∀ labels ∈ modeLabels,
      (labels.map fun label => 36 + 1000 * label.length).sum ≤ 40000 := by decide
  have hlabels := hmodes _ (labels_mem_modeLabels g)
  rw [List.map_map] at hlabels
  exact hlabels

/-- What a finished graph shows.  The drawing went through to the end, and in what it drew each
    line has an entry of its own in the legend, in its own colour and next to the others. -/
structure Canvas.Shows (w h : UInt32) (background : Option ByteArray) (g : GraphStrains)
    (legend : List LegendEntry) (png : ByteArray) : Prop where
  drawn : ∃ surface surface', canvas.surface w.toInt32 h.toInt32 = some surface ∧
    Script.run canvas.step (canvas.backgroundSteps w h background ++
      axesSteps (xRange g) (calculateMaxStrain g.strains) ++ legend.flatMap canvas.entrySteps)
      surface = .ok surface' ∧ canvas.encode surface' = some png
  lines : legend.map LegendEntry.line = drawModeStrains g
  colors : (legend.map LegendEntry.color).Nodup
  apart : legend.Pairwise canvas.Before
  inside : ∀ e ∈ legend, 8 ≤ e.left.toInt

/-- How a drawing comes to its error: there is no surface, or a step fails that all steps before
    it have led to, or the picture is drawn and has no PNG. -/
inductive Canvas.FailsWith (w h : UInt32) : List DrawStep → String → Prop
  | surface {script : List DrawStep} (hs : canvas.surface w.toInt32 h.toInt32 = none) :
    FailsWith w h script "Failed to create surface"
  | step {surface surface' : canvas.Surface} {before after : List DrawStep} {step : DrawStep}
      {text : String} (hs : canvas.surface w.toInt32 h.toInt32 = some surface)
      (hbefore : Script.run canvas.step before surface = .ok surface')
      (hstep : canvas.step step surface' = .error text) :
    FailsWith w h (before ++ step :: after) text
  | png {surface surface' : canvas.Surface} {script : List DrawStep}
      (hs : canvas.surface w.toInt32 h.toInt32 = some surface)
      (hrun : Script.run canvas.step script surface = .ok surface')
      (hpng : canvas.encode surface' = none) : FailsWith w h script "Failed to encode PNG"

section

variable {canvas}

/-- A PNG comes of a surface, all steps of the script, and an encoding. -/
theorem paint_eq_ok_iff {w h : UInt32} {script : List DrawStep} {png : ByteArray} :
    canvas.paint w h script = .ok png ↔ ∃ surface surface',
      canvas.surface w.toInt32 h.toInt32 = some surface ∧
      Script.run canvas.step script surface = .ok surface' ∧ canvas.encode surface' = some png := by
  unfold Canvas.paint Canvas.pngOf
  cases canvas.surface w.toInt32 h.toInt32 with
  | none => simp
  | some surface =>
    cases hrun : Script.run canvas.step script surface with
    | error e => simp [Except.bind, hrun]
    | ok surface' => cases hpng : canvas.encode surface' <;> simp [Except.bind, hrun, hpng]

/-- **A text comes of one failure**, with all steps before it done: no surface, a step of the
    script, or the encoding. -/
theorem paint_eq_error_iff {w h : UInt32} {script : List DrawStep} {text : String} :
    canvas.paint w h script = .error text ↔ canvas.FailsWith w h script text := by
  unfold Canvas.paint
  constructor
  · -- the failure is found where the painting stops
    intro hfail
    cases hs : canvas.surface w.toInt32 h.toInt32 with
    | none =>
      rw [hs] at hfail
      cases hfail
      exact .surface hs
    | some surface =>
      rw [hs, Option.elim_some, Canvas.pngOf] at hfail
      cases hrun : Script.run canvas.step script surface with
      | error text' =>
        obtain ⟨before, step, after, surface', rfl, hbefore, hstep⟩ :=
          Script.run_eq_error_iff.mp hrun
        rw [hrun] at hfail
        cases hfail
        exact .step hs hbefore hstep
      | ok surface' =>
        rw [hrun, Except.bind] at hfail
        cases hpng : canvas.encode surface' with
        | none =>
          rw [hpng] at hfail
          cases hfail
          exact .png hs hrun hpng
        | some png =>
          rw [hpng] at hfail
          cases hfail
  · -- and it stops there with its text
    intro hfail
    cases hfail with
    | surface hs => rw [hs, Option.elim_none]
    | @step surface surface' before after step _ hs hbefore hstep =>
      have hrun := Script.run_eq_error_iff.mpr ⟨before, step, after, surface', rfl, hbefore, hstep⟩
      rw [hs, Option.elim_some, Canvas.pngOf, hrun]
      rfl
    | png hs hrun hpng =>
      rw [hs, Option.elim_some, Canvas.pngOf, hrun, Except.bind, hpng, Option.elim_none]

/-- A drawing that goes through to its PNG shows what it should. -/
theorem shows_of_draw (hbox : canvas.MeasuresText) {w h : UInt32} {background : Option ByteArray}
    {g : GraphStrains} {png : ByteArray}
    (hdraw : canvas.plotting.draw w h background (xRange g) (calculateMaxStrain g.strains)
      (drawModeStrains g) = .ok png) :
    canvas.Shows w h background g (canvas.entries (drawModeStrains g) 8) png := by
  rw [drawGraph_eq_script] at hdraw
  have h8 : (8 : Int32).toInt = 8 := rfl
  have hroom := legendRoom_le g
  obtain ⟨hapart, hinside⟩ := entries_apart hbox (show 0 ≤ (8 : Int32).toInt by omega)
    (show (8 : Int32).toInt + legendRoom (drawModeStrains g) < 2 ^ 31 by omega)
  refine ⟨paint_eq_ok_iff.mp hdraw, entries_line _ _, ?_, hapart, ?_⟩
  · rw [entries_color]
    exact lineColors_nodup g
  · exact fun e he => h8 ▸ hinside e he

/-- The strains fail, or there are none above the threshold, or they are drawn. -/
theorem renderStrainGraphOn_cases (map : Map) (mods : Mods) (width height : UInt32)
    (background : Option ByteArray) :
    (∃ e, GraphStrains.new rosu canvas.plotting map mods = .error e ∧
      renderStrainGraphOn rosu canvas map mods width height background = .error e) ∨
    ∃ g, GraphStrains.new rosu canvas.plotting map mods = .ok g ∧
      renderStrainGraphOn rosu canvas map mods width height background =
        if calculateMaxStrain g.strains ≤ f64Epsilon then .error .noStrainData
        else (canvas.plotting.draw (if width = 0 then defaultWidth else width)
          (if height = 0 then defaultHeight else height) background (xRange g)
          (calculateMaxStrain g.strains) (drawModeStrains g)).mapError Error.graphRendering := by
  rw [renderStrainGraphOn_eq]
  cases hnew : GraphStrains.new rosu canvas.plotting map mods with
  | error e =>
    left
    refine ⟨e, rfl, ?_⟩
    simp only [renderStrainGraph, hnew]
    rfl
  | ok g => exact .inr ⟨g, rfl, renderStrainGraph_of_new rosu hnew width height background⟩

/-- **A finished graph can be read**: every line of the map's mode is in it, drawn from one end
    to the other, and stands in the legend in a colour that only this line has; the entries of
    the legend do not overlap. -/
theorem finished_graph (hbox : canvas.MeasuresText) {map : Map} {mods : Mods}
    {width height : UInt32} {background : Option ByteArray} {png : ByteArray}
    (h : renderStrainGraphOn rosu canvas map mods width height background = .ok png) :
    ∃ g legend, GraphStrains.new rosu canvas.plotting map mods = .ok g ∧
      canvas.Shows (if width = 0 then defaultWidth else width)
        (if height = 0 then defaultHeight else height) background g legend png := by
  rcases renderStrainGraphOn_cases rosu map mods width height background with
    ⟨e, -, he⟩ | ⟨g, hnew, hg⟩
  · -- a failure is no picture
    rw [he] at h
    cases h
  · rw [hg] at h
    split at h
    · cases h
    · -- above the threshold the lines are drawn
      refine ⟨g, canvas.entries (drawModeStrains g) 8, hnew, shows_of_draw hbox ?_⟩
      revert h
      cases canvas.plotting.draw _ _ background _ _ _ with
      | error text => exact fun h => nomatch h
      | ok png' => exact fun h => by cases h; rfl

end

/-- A canvas that takes all pictures with pixels in them and all that is drawn on them. -/
def Canvas.roomy : Canvas where
  Surface := Unit
  surface w h := if 0 < w ∧ 0 < h then some () else none
  decodes _ := false
  setBlendMode _ s := s
  draw _ s := .ok s
  layoutBox text := .ok ((0, -10), (Int32.ofNat (8 * min text.length 100), 2))
  encode _ := some ByteArray.empty
  linear e d n := .ok (Polyline.samples d e n)

/-- It measures texts as it should. -/
theorem measuresText_roomy : Canvas.roomy.MeasuresText := by
  rintro text box hbox
  cases hbox
  have hwidth : (Int32.ofNat (8 * min text.length 100)).toInt = 8 * min text.length 100 := by
    have hsize : Int32.size = 2 ^ 32 := rfl
    rw [Int32.toInt_ofNat', Int.bmod_eq_of_le] <;> omega
  have h0 : (0 : Int32).toInt = 0 := rfl
  simp only [hwidth, h0]
  omega

/-- It takes every step. -/
theorem run_roomy (script : List DrawStep) : Script.run Canvas.roomy.step script () = .ok () := by
  induction script with
  | nil => rfl
  | cons step rest ih => cases step <;> exact ih

theorem paint_roomy (script : List DrawStep) :
    Canvas.roomy.paint 900 250 script = .ok ByteArray.empty :=
  paint_eq_ok_iff.mpr ⟨(), (), rfl, run_roomy script, rfl⟩

/-- An osu! map of two sections, with a strain in each of its four series. -/
def osuSections : Strains :=
  { sectionLen := 400, series := .osu [3, 4] [2, 4] [1, 2] [0, 1] }

/-- Its strains are as a map has them. -/
theorem plottable_osuSections : Plottable osuSections.series := by
  refine ⟨by decide, ?_, ?_⟩
  · simp [osuSections, StrainSeries.lines]
  · -- the aim without sliders is nowhere above the aim
    show ∀ p ∈ [((3 : F64), (2 : F64)), (4, 4)], p.2 ≤ p.1
    simp
    norm_num

/-- Its graph goes through to the end. -/
theorem render_osuSections :
    renderStrainGraphOn (RosuPp.straining osuSections) Canvas.roomy ByteArray.empty 0 0 0 none =
      .ok ByteArray.empty := by
  have hL : 0 < osuSections.sectionLen := by norm_num [osuSections]
  have hplot : UniformSamples Canvas.roomy.plotting := fun _ _ _ _ => rfl
  have hraw : ("Aim", [3, 4]) ∈ osuSections.series.drawn.lines := List.mem_cons_self
  have hhigh : f64Epsilon < keptPart [(3 : F64), 4].length * 3 := by
    norm_num [keptPart, f64Epsilon]
  -- the aim is high enough for the graph not to be refused
  have hdrawn := not_refused hplot (strains_straining osuSections) hL plottable_osuSections hraw
    List.mem_cons_self hhigh 0 0 none
  rw [← renderStrainGraphOn_eq] at hdrawn
  rcases renderStrainGraphOn_cases (RosuPp.straining osuSections) ByteArray.empty 0 0 0 none with
    ⟨e, hnew, -⟩ | ⟨g, -, hg⟩
  · -- there are strains
    rw [GraphStrains.new_eq _ (strains_straining osuSections) plottable_osuSections.sections
      fun line _ => hplot.builds hL line.2] at hnew
    cases hnew
  · -- and they are drawn
    rw [hg] at hdrawn ⊢
    split
    · exact absurd (if_pos ‹_›) hdrawn
    · show Except.mapError _ (Canvas.roomy.plotting.draw 900 250 _ _ _ _) = _
      rw [drawGraph_eq_script, paint_roomy]
      rfl

/-- The theorem at this map: four entries stand next to each other in four colours. -/
theorem finished_graph_of_osuSections :
    ∃ g legend, GraphStrains.new (RosuPp.straining osuSections) Canvas.roomy.plotting
        ByteArray.empty 0 = .ok g ∧
      legend.length = 4 ∧ Canvas.roomy.Shows 900 250 none g legend ByteArray.empty := by
  obtain ⟨g, legend, hnew, hshows⟩ :=
    finished_graph (RosuPp.straining osuSections) measuresText_roomy render_osuSections
  refine ⟨g, legend, hnew, ?_, hshows⟩
  have hL : 0 < osuSections.sectionLen := by norm_num [osuSections]
  have hplot : UniformSamples Canvas.roomy.plotting := fun _ _ _ _ => rfl
  rw [GraphStrains.new_eq _ (strains_straining osuSections) plottable_osuSections.sections
    fun line _ => hplot.builds hL line.2] at hnew
  have hlines := congrArg List.length hshows.lines
  rw [List.length_map, ← Except.ok.inj hnew, drawModeStrains_sampled, List.length_map] at hlines
  exact hlines

section

variable {canvas}

theorem mapError_graphRendering_eq_iff {α : Type} {x : Except String α} {text : String} :
    x.mapError Error.graphRendering = .error (.graphRendering text) ↔ x = .error text := by
  cases x <;> simp [Except.mapError]

/-- Every rendering error is that of the curves, or says what could not be drawn once everything
    before it had been. -/
theorem rendering_error_iff (map : Map) (mods : Mods) (width height : UInt32)
    (background : Option ByteArray) (text : String) :
    renderStrainGraphOn rosu canvas map mods width height background =
        .error (.graphRendering text) ↔
      GraphStrains.new rosu canvas.plotting map mods = .error (.graphRendering text) ∨
      ∃ g, GraphStrains.new rosu canvas.plotting map mods = .ok g ∧
        f64Epsilon < calculateMaxStrain g.strains ∧
        canvas.FailsWith (if width = 0 then defaultWidth else width)
          (if height = 0 then defaultHeight else height)
          (canvas.script (if width = 0 then defaultWidth else width)
            (if height = 0 then defaultHeight else height) background (xRange g)
            (calculateMaxStrain g.strains) (drawModeStrains g)) text := by
  simp only [← paint_eq_error_iff, ← drawGraph_eq_script]
  rcases renderStrainGraphOn_cases rosu map mods width height background with
    ⟨e, hnew, he⟩ | ⟨g, hnew, hg⟩
  · -- the strains fail, and so does everything after them
    rw [he, hnew]
    simp
  · rw [hg, hnew]
    -- the threshold comes before the canvas
    by_cases hmax : calculateMaxStrain g.strains ≤ f64Epsilon
    · simp [hmax]
    · simp [hmax, mapError_graphRendering_eq_iff, not_le.mp hmax]

end

/-! ## The labels of the time axis -/

/-- A label as it is read: minutes, a colon, seconds. -/
def readLabel (label : String) : Option Nat :=
  match label.toList.span (· ≠ ':') with
  | (minutes, _ :: seconds) =>
    some (60 * Nat.ofDigitChars 10 minutes 0 + Nat.ofDigitChars 10 seconds 0)
  | (_, []) => none

/-- The second a time on the axis is in, up to the end of `u64`; the origin has no label. -/
def axisSecond (timestamp : F64) : Option Int :=
  if |timestamp| < f64Epsilon then none
  else some (min ⌊timestamp / 1000⌋ ((2 ^ 64 - 1) / 1000))

/-- From the origin on, what `as u64` leaves of a time has its second. -/
theorem timestampAsU64_div {timestamp : F64} (h0 : 0 ≤ timestamp) :
    ((timestampAsU64 timestamp / 1000 : Nat) : Int) =
      min ⌊timestamp / 1000⌋ ((2 ^ 64 - 1) / 1000) := by
  have hfloor : ⌊timestamp / 1000⌋₊ = ⌊timestamp⌋₊ / 1000 := Nat.floor_div_ofNat timestamp 1000
  have hint : ((⌊timestamp / 1000⌋₊ : Nat) : Int) = ⌊timestamp / 1000⌋ :=
    Int.natCast_floor_eq_floor (div_nonneg h0 (by norm_num))
  rw [timestampAsU64, ← hint, hfloor]
  omega

/-- Digits are read up to the colon. -/
theorem span_digits (n : Nat) (rest : List Char) :
    (Nat.toDigits 10 n ++ ':' :: rest).span (· ≠ ':') = (Nat.toDigits 10 n, ':' :: rest) := by
  have hdigits : ∀ c ∈ Nat.toDigits 10 n, decide (c ≠ ':') = true := by
    intro c hc
    have hdigit := Nat.isDigit_of_mem_toDigits (by decide) (by decide) hc
    refine decide_eq_true fun hcolon => ?_
    rw [hcolon] at hdigit
    exact absurd hdigit (by decide)
  rw [List.span_eq_takeWhile_dropWhile, List.takeWhile_append_of_pos hdigits,
    List.dropWhile_append_of_pos hdigits]
  simp

theorem ofDigitChars_padSeconds (seconds : Nat) :
    Nat.ofDigitChars 10 (padSeconds seconds).toList 0 = seconds := by
  rw [padSeconds, String.toList_append, String.toList_ofList, Nat.toList_repr,
    Nat.ofDigitChars_append, Nat.ofDigitChars_replicate_zero, Nat.mul_zero]
  exact Nat.ofDigitChars_toDigits (by decide) (by decide)

/-- A label is read back as minutes and seconds. -/
theorem readLabel_xLabelFormatter {timestamp : F64} (h0 : 0 ≤ timestamp) :
    (readLabel (xLabelFormatter timestamp)).map Int.ofNat = axisSecond timestamp := by
  unfold xLabelFormatter axisSecond
  split
  · -- the origin: no label, no second
    rfl
  · rw [← timestampAsU64_div h0]
    generalize timestampAsU64 timestamp / 1000 = secs
    have hlabel : ((secs / 60).repr ++ ":" ++ padSeconds (secs % 60)).toList =
        Nat.toDigits 10 (secs / 60) ++ ':' :: (padSeconds (secs % 60)).toList := by
      simp
    rw [readLabel, hlabel, span_digits]
    show some (Int.ofNat (60 * Nat.ofDigitChars 10 _ 0 + Nat.ofDigitChars 10 _ 0)) = _
    rw [Nat.ofDigitChars_toDigits (by decide) (by decide), ofDigitChars_padSeconds,
      Nat.div_add_mod]
    rfl

/-- The label is made of the second alone. -/
theorem xLabelFormatter_eq_of_axisSecond_eq {timestamp timestamp' : F64} (h0 : 0 ≤ timestamp)
    (h0' : 0 ≤ timestamp') (h : axisSecond timestamp = axisSecond timestamp') :
    xLabelFormatter timestamp = xLabelFormatter timestamp' := by
  unfold axisSecond at h
  unfold xLabelFormatter
  rw [← timestampAsU64_div h0, ← timestampAsU64_div h0'] at h
  split at h <;> split at h
  · -- both are the origin
    rw [if_pos ‹_›, if_pos ‹_›]
  · cases h
  · cases h
  · -- the seconds are equal as integers, so the quotients are
    rw [if_neg ‹_›, if_neg ‹_›, Int.ofNat.inj (Option.some.inj h)]

/-- **The axis says when**: from the origin on, the label of a time reads back as the second that
    the time is in, so two times have one label if and only if they are in the same second.
    Below it `as u64` makes every time zero, and the label says `0:00`. -/
theorem axis_labels_read_back {timestamp : F64} (h0 : 0 ≤ timestamp) :
    (readLabel (xLabelFormatter timestamp)).map Int.ofNat = axisSecond timestamp ∧
      ∀ timestamp', 0 ≤ timestamp' → (xLabelFormatter timestamp = xLabelFormatter timestamp' ↔
        axisSecond timestamp = axisSecond timestamp') := by
  refine ⟨readLabel_xLabelFormatter h0, fun timestamp' h0' => ?_⟩
  constructor
  · -- one label is read in one way only
    intro h
    rw [← readLabel_xLabelFormatter h0, h, readLabel_xLabelFormatter h0']
  · exact xLabelFormatter_eq_of_axisSecond_eq h0 h0'

/-- The theorem at a time in the second 61: it has the label of another in that second, and not
    that of the next. -/
theorem axis_labels_read_back_minute :
    (readLabel (xLabelFormatter 61500)).map Int.ofNat = some 61 ∧
      xLabelFormatter 61500 = xLabelFormatter 61999 ∧
      xLabelFormatter 61500 ≠ xLabelFormatter 62000 := by
  have hsecond : axisSecond 61500 = some 61 := by norm_num [axisSecond, f64Epsilon]
  have hsame : axisSecond 61999 = some 61 := by norm_num [axisSecond, f64Epsilon]
  have hnext : axisSecond 62000 = some 62 := by norm_num [axisSecond, f64Epsilon]
  obtain ⟨hread, hlabel⟩ := axis_labels_read_back (show (0 : F64) ≤ 61500 by norm_num)
  refine ⟨hread.trans hsecond, ?_, ?_⟩
  · rw [hlabel _ (by norm_num), hsecond, hsame]
  · rw [Ne, hlabel _ (by norm_num), hsecond, hnext]
    decide

end PpService
