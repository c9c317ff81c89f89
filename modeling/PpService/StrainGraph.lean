/-
  THE STRAIN GRAPH: what it shows, and where.

  `GraphStrains.new` is first brought into one shape for the four modes: the series that are
  drawn, each through `create_curve` (`ofStrains_eq`), and the lines of `draw_mode_strains` are
  those series point by point (`drawModeStrains_eq`).  Over that shape stand three results:

  * vertically every point fits, and `calculate_max_strain`, which zips the series, misses none
    of them, because all have `newStrainCount` points by then;
  * horizontally a point stands at `i * L * c / 200` while its value belongs to the time
    `i * (c - 1) * L / 199`: within one section for up to 400 sections, and not beyond;
  * the axis starts after the first point and ends before the last one.

  What the interpolation is relied on for is named where it is used: `TakesAll`,
  `ConvexSamples`, `UniformSamples`.

  The crux of the first is that zipping loses nothing among lists of one length
  (`StrainSeries.mem_visited`), so the maximum is over all the points drawn
  (`calculateMaxStrain_isGreatest`).  The crux of the second is that the drift of point `i` from
  the time of its value grows with `i`, so it is enough to look at the last point
  (`drifts_le_iff`); there it is a matter of the number of sections alone.
-/
import PpService.Graph
import PpService.Lib.Polyline
import Mathlib.Data.Rat.Floor
import Mathlib.Tactic.NormNum

namespace PpService

variable {Map Mods GD GP : Type} (rosu : RosuPp Map Mods GD GP) {plot : Plotting}

/-! ## The series of a mode -/

/-- The series under the labels they are drawn with, in that order. -/
def StrainSeries.lines : StrainSeries → List (String × List F64)
  | .osu aim aimNoSliders speed flashlight =>
    [("Aim", aim), ("Aim (Sliders)", aimNoSliders), ("Speed", speed), ("Flashlight", flashlight)]
  | .taiko color reading rhythm stamina singleColorStamina =>
    [("Stamina", stamina), ("Stamina (SC)", singleColorStamina), ("Color", color),
      ("Rhythm", rhythm), ("Reading", reading)]
  | .catch_ movement => [("Movement", movement)]
  | .mania strains => [("Strain", strains)]

/-- The same function on every series. -/
def StrainSeries.map (f : List F64 → List F64) : StrainSeries → StrainSeries
  | .osu aim aimNoSliders speed flashlight =>
    .osu (f aim) (f aimNoSliders) (f speed) (f flashlight)
  | .taiko color reading rhythm stamina singleColorStamina =>
    .taiko (f color) (f reading) (f rhythm) (f stamina) (f singleColorStamina)
  | .catch_ movement => .catch_ (f movement)
  | .mania strains => .mania (f strains)

/-- The series that go through `create_curve`: osu!'s second one is slider aim by then. -/
def StrainSeries.drawn : StrainSeries → StrainSeries
  | .osu aim aimNoSliders speed flashlight =>
    .osu aim (sliderAim aim aimNoSliders) speed flashlight
  | s => s

/-- A map over the series keeps the labels. -/
theorem StrainSeries.lines_map (f : List F64 → List F64) (s : StrainSeries) :
    (s.map f).lines = s.lines.map fun line => (line.1, f line.2) := by
  cases s <;> rfl

/-- Taking the sliders out keeps the length that counts. -/
@[simp] theorem StrainSeries.count_drawn (s : StrainSeries) : s.drawn.count = s.count := by
  cases s <;> rfl

/-- One of the lines is the series whose length counts. -/
theorem StrainSeries.exists_counted (s : StrainSeries) :
    ∃ line ∈ s.lines, line.2.length = s.count := by
  cases s with
  | osu aim _ _ _ => exact ⟨("Aim", aim), by simp [lines], rfl⟩
  | taiko color _ _ _ _ => exact ⟨("Color", color), by simp [lines], rfl⟩
  | catch_ movement => exact ⟨("Movement", movement), by simp [lines], rfl⟩
  | mania strains => exact ⟨("Strain", strains), by simp [lines], rfl⟩

/-- A length that all the lines have is the length that counts. -/
theorem StrainSeries.count_eq {s : StrainSeries} {n : Nat}
    (h : ∀ line ∈ s.lines, line.2.length = n) : s.count = n := by
  obtain ⟨line, hline, hcount⟩ := s.exists_counted
  rw [← hcount, h line hline]

/-- The distance on the time axis from one point to the next. -/
def timeFactor (g : GraphStrains) : F64 :=
  g.strains.sectionLen * g.strainsCount / g.strains.series.count

/-- **The lines of the graph** are the series, each value at its time. -/
theorem drawModeStrains_eq (g : GraphStrains) :
    drawModeStrains g = g.strains.series.lines.map fun line =>
      { label := line.1, points := seriesPoints (timeFactor g) line.2 } := by
  obtain ⟨⟨sectionLen, series⟩, strainsCount⟩ := g
  cases series <;> rfl

/-- Point `i` of a line is value `i` of the series, `i` distances from the start. -/
theorem getElem?_seriesPoints (factor : F64) (strains : List F64) (i : Nat) :
    (seriesPoints factor strains)[i]? = strains[i]?.map fun v => (i * factor, v) := by
  simp [seriesPoints]

/-! ## Resampling -/

/-- The points `create_curve` makes of a series, none when it fails. -/
def curveOf (plot : Plotting) (sectionLen : F64) (raw : List F64) : List F64 :=
  match createCurve plot sectionLen raw with
  | .ok curve => curve
  | .error _ => []

/-- `create_curve` by the length of the series. -/
theorem createCurve_cases (plot : Plotting) (sectionLen : F64) (raw : List F64) :
    (raw = [] ∧ createCurve plot sectionLen raw = .ok (List.replicate newStrainCount 0)) ∨
    (∃ v, raw = [v] ∧
      createCurve plot sectionLen raw = .ok (List.replicate newStrainCount v)) ∨
    (2 ≤ raw.length ∧ createCurve plot sectionLen raw =
      (plot.linear raw sectionLen newStrainCount).mapError fun e =>
        .graphRendering ("Failed to build curve: " ++ e)) := by
  match raw with
  | [] => exact .inl ⟨rfl, rfl⟩
  | [v] => exact .inr (.inl ⟨v, rfl, rfl⟩)
  | a :: b :: rest => exact .inr (.inr ⟨by simp, rfl⟩)

/-- The interpolation of a series that needs one succeeds with a value per point.  Series of no or
    one element need none: they become a flat line. -/
def Builds (plot : Plotting) (sectionLen : F64) (raw : List F64) : Prop :=
  2 ≤ raw.length →
    ∃ r, plot.linear raw sectionLen newStrainCount = .ok r ∧ r.length = newStrainCount

/-- A series that needs the interpolation gets what the interpolation makes. -/
theorem curveOf_of_linear {sectionLen : F64} {raw r : List F64} (h2 : 2 ≤ raw.length)
    (hr : plot.linear raw sectionLen newStrainCount = .ok r) :
    createCurve plot sectionLen raw = .ok r ∧ curveOf plot sectionLen raw = r := by
  have hcurve : createCurve plot sectionLen raw = .ok r := by
    rcases createCurve_cases plot sectionLen raw with ⟨rfl, -⟩ | ⟨v, rfl, -⟩ | ⟨-, h⟩
    · simp at h2
    · simp at h2
    · rw [h, hr]
      rfl
  exact ⟨hcurve, by rw [curveOf, hcurve]⟩

/-- A series that builds gets as many points as are asked for. -/
theorem curveOf_spec {sectionLen : F64} {raw : List F64} (h : Builds plot sectionLen raw) :
    createCurve plot sectionLen raw = .ok (curveOf plot sectionLen raw) ∧
      (curveOf plot sectionLen raw).length = newStrainCount := by
  rcases createCurve_cases plot sectionLen raw with ⟨-, hc⟩ | ⟨v, -, hc⟩ | ⟨h2, -⟩
  · -- no element: a line along the axis
    rw [curveOf, hc]
    exact ⟨rfl, List.length_replicate⟩
  · -- one element: a line at its height
    rw [curveOf, hc]
    exact ⟨rfl, List.length_replicate⟩
  · -- two or more: the interpolation
    obtain ⟨r, hr, hlen⟩ := h h2
    obtain ⟨hc, hcurve⟩ := curveOf_of_linear h2 hr
    rw [hcurve]
    exact ⟨hc, hlen⟩

/-- The graph of a map's strains when every curve builds.  Section length and number of sections
    stay those of the raw strains; the points that are drawn are the samples. -/
def sampled (plot : Plotting) (strains : Strains) : GraphStrains where
  strains := { strains with series := strains.series.drawn.map (curveOf plot strains.sectionLen) }
  strainsCount := strains.series.count

/-- Resampling is one function on all series, where all of them build. -/
theorem resample_eq {strains : Strains}
    (h : ∀ line ∈ strains.series.drawn.lines, createCurve plot strains.sectionLen line.2 =
      .ok (curveOf plot strains.sectionLen line.2)) :
    resample plot strains = .ok (sampled plot strains).strains := by
  obtain ⟨sectionLen, series⟩ := strains
  cases series with
  | osu aim aimNoSliders speed flashlight =>
    simp only [StrainSeries.drawn, StrainSeries.lines, List.forall_mem_cons] at h
    obtain ⟨h1, h2, h3, h4, -⟩ := h
    simp only [resample, h1, h2, h3, h4]
    rfl
  | taiko color reading rhythm stamina singleColorStamina =>
    simp only [StrainSeries.drawn, StrainSeries.lines, List.forall_mem_cons] at h
    obtain ⟨h1, h2, h3, h4, h5, -⟩ := h
    simp only [resample, h1, h2, h3, h4, h5]
    rfl
  | catch_ movement =>
    simp only [StrainSeries.drawn, StrainSeries.lines, List.forall_mem_cons] at h
    simp only [resample, h.1]
    rfl
  | mania strains =>
    simp only [StrainSeries.drawn, StrainSeries.lines, List.forall_mem_cons] at h
    simp only [resample, h.1]
    rfl

/-- So is all of `GraphStrains::new` after the strains. -/
theorem ofStrains_eq {strains : Strains} (hc : strains.series.count ≠ 0)
    (h : ∀ line ∈ strains.series.drawn.lines, Builds plot strains.sectionLen line.2) :
    GraphStrains.ofStrains plot strains = .ok (sampled plot strains) := by
  rw [GraphStrains.ofStrains, if_neg hc,
    resample_eq fun line hline => (curveOf_spec (h line hline)).1]
  rfl

/-- A line of the resampled graph is a drawn series under `create_curve`. -/
theorem mem_sampled_lines {strains : Strains} {line : String × List F64} :
    line ∈ (sampled plot strains).strains.series.lines ↔
      ∃ raw ∈ strains.series.drawn.lines,
        (raw.1, curveOf plot strains.sectionLen raw.2) = line := by
  rw [sampled, StrainSeries.lines_map, List.mem_map]

/-- Every line of the resampled graph has the same number of points. -/
theorem length_sampled {strains : Strains}
    (h : ∀ line ∈ strains.series.drawn.lines, Builds plot strains.sectionLen line.2) :
    ∀ line ∈ (sampled plot strains).strains.series.lines, line.2.length = newStrainCount := by
  intro line hline
  obtain ⟨raw, hraw, rfl⟩ := mem_sampled_lines.mp hline
  exact (curveOf_spec (h raw hraw)).2

/-! ## The vertical range -/

/-- `calculate_max_strain` visits the points index by index: what it visits, in that order.  The zip
    ends with the shortest series, so a longer one would have a tail that is not visited. -/
def StrainSeries.visited : StrainSeries → List F64
  | .osu aim aimNoSliders speed flashlight =>
    (((aim.zip aimNoSliders).zip speed).zip flashlight).flatMap fun p =>
      [p.1.1.1, p.1.1.2, p.1.2, p.2]
  | .taiko color reading rhythm stamina singleColorStamina =>
    ((((color.zip rhythm).zip stamina).zip singleColorStamina).zip reading).flatMap fun p =>
      [p.1.1.1.1, p.1.1.1.2, p.1.1.2, p.1.2, p.2]
  | .catch_ movement => movement
  | .mania strains => strains

/-- The maximum is a fold of `max` over what it visits. -/
theorem calculateMaxStrain_eq (strains : Strains) :
    calculateMaxStrain strains = strains.series.visited.foldl max 0 := by
  obtain ⟨sectionLen, series⟩ := strains
  cases series <;> simp [calculateMaxStrain, StrainSeries.visited, List.foldl_flatMap]

/-- Zipping in one more series of the same length adds its points and drops none. -/
theorem mem_flatMap_zip {α : Type} (f : α → List F64) {rows : List α} {strains : List F64}
    (h : rows.length = strains.length) (v : F64) :
    v ∈ (rows.zip strains).flatMap (fun p => f p.1 ++ [p.2]) ↔
      v ∈ rows.flatMap f ∨ v ∈ strains := by
  simp only [List.mem_flatMap, List.mem_append, List.mem_singleton]
  constructor
  · rintro ⟨p, hp, hv | rfl⟩
    · exact .inl ⟨p.1, (List.of_mem_zip hp).1, hv⟩
    · exact .inr (List.of_mem_zip hp).2
  · -- lists of one length have all their elements in the zip
    rintro (⟨a, ha, hv⟩ | hv)
    · rw [← List.map_fst_zip h.le] at ha
      obtain ⟨p, hp, rfl⟩ := List.mem_map.mp ha
      exact ⟨p, hp, .inl hv⟩
    · rw [← List.map_snd_zip h.ge] at hv
      obtain ⟨p, hp, rfl⟩ := List.mem_map.mp hv
      exact ⟨p, hp, .inr rfl⟩

/-- Series of one length have no tail for the zip to drop. -/
theorem StrainSeries.mem_visited {s : StrainSeries} {n : Nat}
    (h : ∀ line ∈ s.lines, line.2.length = n) (v : F64) :
    v ∈ s.visited ↔ ∃ line ∈ s.lines, v ∈ line.2 := by
  cases s with
  | osu aim aimNoSliders speed flashlight =>
    -- the zip grows by one series at a time
    simp only [lines, List.forall_mem_cons] at h
    obtain ⟨haim, hsliders, hspeed, hflash, -⟩ := h
    have hrow2 := mem_flatMap_zip (fun a => [a]) (haim.trans hsliders.symm) v
    have hrow3 := mem_flatMap_zip (fun p => [p.1] ++ [p.2])
      (show (aim.zip aimNoSliders).length = speed.length by simp [haim, hsliders, hspeed]) v
    have hrow4 := mem_flatMap_zip (fun p => [p.1.1] ++ [p.1.2] ++ [p.2])
      (show ((aim.zip aimNoSliders).zip speed).length = flashlight.length by
        simp [haim, hsliders, hspeed, hflash]) v
    rw [hrow3, hrow2, List.flatMap_singleton'] at hrow4
    simp only [lines, List.exists_mem_cons_iff, List.not_mem_nil, false_and, exists_false,
      or_false]
    exact hrow4.trans (by simp only [or_assoc])
  | taiko color reading rhythm stamina singleColorStamina =>
    simp only [lines, List.forall_mem_cons] at h
    obtain ⟨hstamina, hsingle, hcolor, hrhythm, hreading, -⟩ := h
    have hrow2 := mem_flatMap_zip (fun a => [a]) (hcolor.trans hrhythm.symm) v
    have hrow3 := mem_flatMap_zip (fun p => [p.1] ++ [p.2])
      (show (color.zip rhythm).length = stamina.length by simp [hcolor, hrhythm, hstamina]) v
    have hrow4 := mem_flatMap_zip (fun p => [p.1.1] ++ [p.1.2] ++ [p.2])
      (show ((color.zip rhythm).zip stamina).length = singleColorStamina.length by
        simp [hcolor, hrhythm, hstamina, hsingle]) v
    have hrow5 := mem_flatMap_zip (fun p => [p.1.1.1] ++ [p.1.1.2] ++ [p.1.2] ++ [p.2])
      (show (((color.zip rhythm).zip stamina).zip singleColorStamina).length = reading.length by
        simp [hcolor, hrhythm, hstamina, hsingle, hreading]) v
    rw [hrow4, hrow3, hrow2, List.flatMap_singleton'] at hrow5
    simp only [lines, List.exists_mem_cons_iff, List.not_mem_nil, false_and, exists_false,
      or_false]
    exact hrow5.trans (by simp only [or_assoc, or_comm, or_left_comm])
  | catch_ movement => simp [visited, lines]
  | mania strains => simp [visited, lines]

/-- A fold of `max` from 0 over non-negative values ends at the greatest of them. -/
theorem foldl_max_isGreatest {l : List F64} (hne : l ≠ []) (h0 : ∀ v ∈ l, 0 ≤ v) :
    IsGreatest {v | v ∈ l} (l.foldl max 0) := by
  have hmem : l.max hne ∈ l := List.max_mem hne
  rw [List.foldl_max_eq_max hne, max_eq_right (h0 _ hmem)]
  exact ⟨hmem, fun v hv => List.le_max_of_mem hv⟩

/-- Raw strains as a map has them: at least one section, no strain negative, and for osu! the
    sliders only ever add to the aim. -/
structure Plottable (s : StrainSeries) : Prop where
  sections : s.count ≠ 0
  nonneg : ∀ line ∈ s.lines, ∀ v ∈ line.2, 0 ≤ v
  sliders : match s with
    | .osu aim aimNoSliders _ _ => ∀ p ∈ aim.zip aimNoSliders, p.2 ≤ p.1
    | _ => True

/-- Slider aim is not negative: where sliders add to the aim, and in the tail, which stays as it
    is. -/
theorem sliderAim_nonneg {aim aimNoSliders : List F64} (h0 : ∀ v ∈ aimNoSliders, 0 ≤ v)
    (hle : ∀ p ∈ aim.zip aimNoSliders, p.2 ≤ p.1) : ∀ v ∈ sliderAim aim aimNoSliders, 0 ≤ v := by
  intro v hv
  rcases List.mem_append.mp hv with hv | hv
  · -- a difference
    rw [← List.map_uncurry_zip_eq_zipWith] at hv
    obtain ⟨p, hp, rfl⟩ := List.mem_map.mp hv
    exact sub_nonneg.mpr (hle p hp)
  · -- the tail
    exact h0 v (List.mem_of_mem_drop hv)

/-- So no drawn series is negative anywhere. -/
theorem Plottable.drawn_nonneg {s : StrainSeries} (h : Plottable s) :
    ∀ line ∈ s.drawn.lines, ∀ v ∈ line.2, 0 ≤ v := by
  have h0 := h.nonneg
  cases s with
  | osu aim aimNoSliders speed flashlight =>
    simp only [StrainSeries.drawn, StrainSeries.lines, List.forall_mem_cons] at h0 ⊢
    obtain ⟨haim, hno, hrest⟩ := h0
    exact ⟨haim, sliderAim_nonneg hno h.sliders, hrest⟩
  | taiko => exact h0
  | catch_ => exact h0
  | mania => exact h0

/-- The interpolation as every graph relies on it: a curve through two elements or more builds,
    and `take` has as many values as it is asked for. -/
def TakesAll (plot : Plotting) : Prop := ∀ sectionLen raw, Builds plot sectionLen raw

/-- The interpolation as the heights rely on it: moreover each value is a convex combination of
    two neighbouring elements. -/
def ConvexSamples (plot : Plotting) : Prop :=
  ∀ (sectionLen : F64) (raw : List F64), 2 ≤ raw.length →
    ∃ r, plot.linear raw sectionLen newStrainCount = .ok r ∧ r.length = newStrainCount ∧
      ∀ p ∈ r, Polyline.Between raw p

theorem ConvexSamples.takesAll (h : ConvexSamples plot) : TakesAll plot := by
  intro sectionLen raw h2
  obtain ⟨r, hr, hlen, -⟩ := h sectionLen raw h2
  exact ⟨r, hr, hlen⟩

/-- Resampling makes no negative strain of non-negative ones, where the interpolation stays
    between neighbouring elements. -/
theorem curveOf_nonneg {sectionLen : F64} {raw : List F64}
    (hbetween : 2 ≤ raw.length → ∃ r, plot.linear raw sectionLen newStrainCount = .ok r ∧
      ∀ p ∈ r, Polyline.Between raw p)
    (h0 : ∀ v ∈ raw, 0 ≤ v) : ∀ v ∈ curveOf plot sectionLen raw, 0 ≤ v := by
  intro v hv
  rcases createCurve_cases plot sectionLen raw with ⟨-, hc⟩ | ⟨u, rfl, hc⟩ | ⟨h2, -⟩
  · -- zero is not negative
    rw [curveOf, hc] at hv
    exact (List.eq_of_mem_replicate hv).ge
  · -- nor is the one element
    rw [curveOf, hc] at hv
    rw [List.eq_of_mem_replicate hv]
    exact h0 u (List.mem_singleton_self u)
  · -- nor is what lies between two
    obtain ⟨r, hr, hr'⟩ := hbetween h2
    rw [(curveOf_of_linear h2 hr).2] at hv
    exact (hr' v hv).le h0

/-- So no point of the resampled graph is. -/
theorem sampled_nonneg (hplot : ConvexSamples plot) {strains : Strains}
    (h : Plottable strains.series) :
    ∀ line ∈ (sampled plot strains).strains.series.lines, ∀ v ∈ line.2, 0 ≤ v := by
  intro line hline
  obtain ⟨raw, hraw, rfl⟩ := mem_sampled_lines.mp hline
  refine curveOf_nonneg (fun h2 => ?_) (h.drawn_nonneg raw hraw)
  obtain ⟨r, hr, -, hbetween⟩ := hplot strains.sectionLen raw.2 h2
  exact ⟨r, hr, hbetween⟩

/-- The maximum of a graph whose series have `newStrainCount` points each, none negative, is the
    greatest of all its points. -/
theorem calculateMaxStrain_isGreatest {strains : Strains}
    (hlen : ∀ line ∈ strains.series.lines, line.2.length = newStrainCount)
    (h0 : ∀ line ∈ strains.series.lines, ∀ v ∈ line.2, 0 ≤ v) :
    IsGreatest {v | ∃ line ∈ strains.series.lines, v ∈ line.2} (calculateMaxStrain strains) := by
  have hvisited : {v | ∃ line ∈ strains.series.lines, v ∈ line.2} =
      {v | v ∈ strains.series.visited} :=
    Set.ext fun v => (StrainSeries.mem_visited hlen v).symm
  -- a graph has a line and a line has points
  have hne : strains.series.visited ≠ [] := by
    obtain ⟨line, hline, -⟩ := strains.series.exists_counted
    have hpos : 0 < line.2.length := by rw [hlen line hline]; decide
    exact List.ne_nil_of_mem
      ((StrainSeries.mem_visited hlen _).mpr ⟨line, hline, List.getElem_mem hpos⟩)
  rw [hvisited, calculateMaxStrain_eq]
  refine foldl_max_isGreatest hne fun v hv => ?_
  obtain ⟨line, hline, hmem⟩ := (StrainSeries.mem_visited hlen v).mp hv
  exact h0 line hline v hmem

/-- `GraphStrains::new` on strains of which all series build. -/
theorem GraphStrains.new_eq {map : Map} {mods : Mods} {strains : Strains}
    (hs : rosu.strains (graphDifficulty rosu mods) map = strains)
    (hc : strains.series.count ≠ 0)
    (h : ∀ line ∈ strains.series.drawn.lines, Builds plot strains.sectionLen line.2) :
    GraphStrains.new rosu plot map mods = .ok (sampled plot strains) := by
  rw [GraphStrains.new, hs, ofStrains_eq hc h]

/-- The range of the chart on the time axis. -/
def xRange (g : GraphStrains) : F64 × F64 := (min (lastTimestamp g) 1, lastTimestamp g)

/-- Once the strains are there, `render_strain_graph` draws the chart or finds nothing to draw. -/
theorem renderStrainGraph_of_new {map : Map} {mods : Mods} {g : GraphStrains}
    (hg : GraphStrains.new rosu plot map mods = .ok g) (width height : UInt32)
    (background : Option ByteArray) :
    renderStrainGraph rosu plot map mods width height background =
      if calculateMaxStrain g.strains ≤ f64Epsilon then .error .noStrainData
      else (plot.draw (if width = 0 then defaultWidth else width)
        (if height = 0 then defaultHeight else height) background (xRange g)
        (calculateMaxStrain g.strains) (drawModeStrains g)).mapError Error.graphRendering := by
  simp only [renderStrainGraph, hg]
  by_cases hmax : calculateMaxStrain g.strains ≤ f64Epsilon
  · simp only [bind, Except.bind, if_pos hmax]
    rfl
  · simp only [bind, Except.bind, if_neg hmax]
    rfl

/-- What is drawn are the points of the lines. -/
theorem forall_drawn (g : GraphStrains) (P : F64 → Prop) :
    (∀ line ∈ drawModeStrains g, ∀ p ∈ line.points, P p.2) ↔
      ∀ line ∈ g.strains.series.lines, ∀ v ∈ line.2, P v := by
  rw [drawModeStrains_eq, List.forall_mem_map]
  refine forall₂_congr fun line _ => ⟨fun h v hv => ?_, fun h p hp => ?_⟩
  · obtain ⟨i, hi, rfl⟩ := List.mem_iff_getElem.mp hv
    exact h (i * timeFactor g, line.2[i]) (List.mem_mapIdx.mpr ⟨i, hi, rfl⟩)
  · obtain ⟨i, hi, rfl⟩ := List.mem_mapIdx.mp hp
    exact h _ (List.getElem_mem hi)

/-- Nothing the backend does is reported as missing strain data. -/
theorem mapError_graphRendering_ne {α : Type} (x : Except String α) :
    x.mapError Error.graphRendering ≠ .error .noStrainData := by
  cases x <;> simp [Except.mapError]

/-- So the graph is refused exactly when the maximum is no more than the threshold. -/
theorem renderStrainGraph_refused_iff {map : Map} {mods : Mods} {g : GraphStrains}
    (hg : GraphStrains.new rosu plot map mods = .ok g) (width height : UInt32)
    (background : Option ByteArray) :
    renderStrainGraph rosu plot map mods width height background = .error .noStrainData ↔
      calculateMaxStrain g.strains ≤ f64Epsilon := by
  rw [renderStrainGraph_of_new rosu hg]
  constructor
  · intro hrefused
    by_contra hmax
    rw [if_neg hmax] at hrefused
    exact mapError_graphRendering_ne _ hrefused
  · intro hmax
    exact if_pos hmax

/-- The heights fit: every series has all its points, none of them negative, none is above the
    maximum, and one of them is at it. -/
structure GraphStrains.HeightsFit (g : GraphStrains) : Prop where
  length : ∀ line ∈ g.strains.series.lines, line.2.length = newStrainCount
  nonneg : ∀ line ∈ g.strains.series.lines, ∀ v ∈ line.2, 0 ≤ v
  le_max : ∀ line ∈ g.strains.series.lines, ∀ v ∈ line.2, v ≤ calculateMaxStrain g.strains
  max_mem : ∃ line ∈ g.strains.series.lines, calculateMaxStrain g.strains ∈ line.2

/-- **The heights of the resampled graph fit**, for strains as a map has them. -/
theorem heightsFit_sampled (hplot : ConvexSamples plot) {strains : Strains}
    (h : Plottable strains.series) : (sampled plot strains).HeightsFit := by
  have hlen := length_sampled fun line _ => hplot.takesAll strains.sectionLen line.2
  have h0 := sampled_nonneg hplot h
  have hmax := calculateMaxStrain_isGreatest hlen h0
  exact ⟨hlen, h0, fun line hline v hv => hmax.2 ⟨line, hline, hv⟩, hmax.1⟩

/-- The maximum decides about all the points at once. -/
theorem GraphStrains.HeightsFit.max_le_iff {g : GraphStrains} (h : g.HeightsFit) (bound : F64) :
    calculateMaxStrain g.strains ≤ bound ↔
      ∀ line ∈ drawModeStrains g, ∀ p ∈ line.points, p.2 ≤ bound := by
  rw [forall_drawn g (· ≤ bound)]
  constructor
  · intro hmax line hline v hv
    exact (h.le_max line hline v hv).trans hmax
  · intro hall
    obtain ⟨line, hline, hmem⟩ := h.max_mem
    exact hall line hline _ hmem

/-- **Every drawn strain fits the vertical range**, the range is no larger than that, and the
    graph is refused exactly when there is nothing to see on it. -/
theorem strains_fit_the_graph (hplot : ConvexSamples plot) {map : Map} {mods : Mods}
    {strains : Strains} (hs : rosu.strains (graphDifficulty rosu mods) map = strains)
    (hmap : Plottable strains.series) (width height : UInt32) (background : Option ByteArray) :
    ∃ g, GraphStrains.new rosu plot map mods = .ok g ∧ g.HeightsFit ∧
      (renderStrainGraph rosu plot map mods width height background = .error .noStrainData ↔
        ∀ line ∈ drawModeStrains g, ∀ p ∈ line.points, p.2 ≤ f64Epsilon) := by
  have hnew := GraphStrains.new_eq rosu hs hmap.sections
    fun line _ => hplot.takesAll strains.sectionLen line.2
  have hfit := heightsFit_sampled hplot hmap
  refine ⟨_, hnew, hfit, ?_⟩
  rw [renderStrainGraph_refused_iff rosu hnew, hfit.max_le_iff]

/-! ### On a concrete interpolation -/

/-- The library whose every map has these strains. -/
def RosuPp.straining (strains : Strains) :
    RosuPp ByteArray UInt32 (List DifficultyAttributes) (List PerformanceAttributes) :=
  { RosuPp.sample with strains := fun _ _ => strains }

/-- Linear interpolation with equidistant samples, and an empty picture. -/
def Plotting.even : Plotting where
  linear := fun e d n => .ok (Polyline.samples d e n)
  draw := fun _ _ _ _ _ _ => .ok ByteArray.empty

theorem convexSamples_even : ConvexSamples Plotting.even :=
  fun sectionLen raw h2 => ⟨Polyline.samples sectionLen raw newStrainCount, rfl,
    Polyline.length_samples _ _ _, fun _ hp => Polyline.between_of_mem_samples h2 hp⟩

theorem builds_even (sectionLen : F64) (raw : List F64) : Builds Plotting.even sectionLen raw :=
  convexSamples_even.takesAll sectionLen raw

/-- Every map with sections has a graph under the even interpolation. -/
theorem new_straining {strains : Strains} (hc : strains.series.count ≠ 0) :
    GraphStrains.new (RosuPp.straining strains) Plotting.even ByteArray.empty 0 =
      .ok (sampled Plotting.even strains) :=
  GraphStrains.new_eq (RosuPp.straining strains) rfl hc
    fun line _ => builds_even strains.sectionLen line.2

/-- An osu! map whose series have two, one, no and one sections. -/
def unevenStrains : Strains := { sectionLen := 400, series := .osu [1, 3] [1] [] [2] }

theorem plottable_unevenStrains : Plottable unevenStrains.series where
  sections := by decide
  nonneg := by simp [unevenStrains, StrainSeries.lines]
  sliders := by simp [unevenStrains]

/-- The theorem at series of different lengths. -/
theorem uneven_strains_fit_the_graph :
    ∃ g, GraphStrains.new (RosuPp.straining unevenStrains) Plotting.even ByteArray.empty 0 = .ok g ∧
      g.HeightsFit ∧
      (renderStrainGraph (RosuPp.straining unevenStrains) Plotting.even ByteArray.empty 0 0 0 none =
          .error .noStrainData ↔
        ∀ line ∈ drawModeStrains g, ∀ p ∈ line.points, p.2 ≤ f64Epsilon) :=
  strains_fit_the_graph (RosuPp.straining unevenStrains) convexSamples_even rfl
    plottable_unevenStrains 0 0 none

/-! ## The time axis -/

/-- Where the points of the resampled graph stand. -/
theorem timeFactor_sampled {strains : Strains}
    (h : ∀ line ∈ strains.series.drawn.lines, Builds plot strains.sectionLen line.2) :
    timeFactor (sampled plot strains) = strains.sectionLen * strains.series.count / 200 := by
  rw [timeFactor, StrainSeries.count_eq (length_sampled h)]
  rfl

/-- Point `i` of the lines of the resampled graph. -/
theorem getElem?_drawn {strains : Strains}
    (h : ∀ line ∈ strains.series.drawn.lines, Builds plot strains.sectionLen line.2)
    {line : GraphSeries} (hline : line ∈ drawModeStrains (sampled plot strains)) {i : Nat}
    (hi : i < newStrainCount) :
    ∃ v, line.points[i]? = some (i * (strains.sectionLen * strains.series.count / 200), v) := by
  rw [drawModeStrains_eq] at hline
  obtain ⟨curve, hcurve, rfl⟩ := List.mem_map.mp hline
  have hlen : i < curve.2.length := by rw [length_sampled h curve hcurve]; exact hi
  exact ⟨curve.2[i], by rw [getElem?_seriesPoints, timeFactor_sampled h,
    List.getElem?_eq_getElem hlen]; rfl⟩

/-- The interpolation as the time axis relies on it: the elements lie `sectionLen` apart, and
    the samples are equidistant with both ends. -/
def UniformSamples (plot : Plotting) : Prop :=
  ∀ (sectionLen : F64) (raw : List F64), 0 < sectionLen → 2 ≤ raw.length →
    plot.linear raw sectionLen newStrainCount =
      .ok (Polyline.samples sectionLen raw newStrainCount)

theorem UniformSamples.builds (h : UniformSamples plot) {sectionLen : F64} (hL : 0 < sectionLen)
    (raw : List F64) : Builds plot sectionLen raw :=
  fun h2 => ⟨_, h sectionLen raw hL h2, Polyline.length_samples _ _ _⟩

/-- The line shows the series within one section: every point has the height of the curve at the
    time it was sampled at, and stands at most one section away from that time. -/
def ShowsWithin (sectionLen : F64) (raw : List F64) (line : GraphSeries) : Prop :=
  ∀ i, i < newStrainCount → ∃ p, line.points[i]? = some p ∧
    p.2 = Polyline.eval sectionLen raw
      (Polyline.sampleTime sectionLen raw.length newStrainCount i) ∧
    |p.1 - Polyline.sampleTime sectionLen raw.length newStrainCount i| ≤ sectionLen

/-- The time axis is accurate to one section, for the series over all the sections. -/
def AxisAccurate (strains : Strains) (g : GraphStrains) : Prop :=
  List.Forall₂ (fun raw line =>
    raw.2.length = strains.series.count → ShowsWithin strains.sectionLen raw.2 line)
    strains.series.drawn.lines (drawModeStrains g)

/-- Point `i` drifts by `i / 199` of what the two formulas for the last point differ by. -/
theorem drift_eq (sectionLen : F64) (c i : Nat) :
    i * (sectionLen * c / 200) - Polyline.sampleTime sectionLen c newStrainCount i =
      i * (200 - c) * sectionLen / 39800 := by
  have hn : ((newStrainCount : Nat) : F64) - 1 = 199 := by norm_num [newStrainCount]
  rw [Polyline.sampleTime, hn]
  ring

/-- Point `i` is within one section of its time up to this bound on `i` and on the sections. -/
theorem drift_le_iff {sectionLen : F64} (hL : 0 < sectionLen) (c i : Nat) :
    |i * (sectionLen * c / 200) - Polyline.sampleTime sectionLen c newStrainCount i| ≤ sectionLen ↔
      i * |200 - (c : F64)| ≤ 39800 := by
  have habs : |i * (200 - (c : F64)) * sectionLen / 39800| =
      (i * |200 - (c : F64)|) * sectionLen / 39800 := by
    rw [abs_div, abs_mul, abs_mul, abs_of_pos hL, abs_of_nonneg (Nat.cast_nonneg i)]
    norm_num
  rw [drift_eq, habs, div_le_iff₀ (by norm_num), mul_comm sectionLen]
  exact mul_le_mul_iff_of_pos_right hL

/-- The last point drifts most, and it is within one section for up to 400 of them. -/
theorem drifts_le_iff {sectionLen : F64} (hL : 0 < sectionLen) (c : Nat) :
    (∀ i, i < newStrainCount →
      |i * (sectionLen * c / 200) - Polyline.sampleTime sectionLen c newStrainCount i| ≤
        sectionLen) ↔ c ≤ 400 := by
  simp only [drift_le_iff hL]
  constructor
  · -- the last point decides
    intro h
    have hlast : ((199 : Nat) : F64) * |200 - (c : F64)| ≤ 39800 := h 199 (by decide)
    have habs : |200 - (c : F64)| ≤ 200 := by push_cast at hlast; linarith
    have hc : (c : F64) ≤ 400 := by linarith [(abs_le.mp habs).1]
    exact_mod_cast hc
  · -- the others drift less
    intro hc i hi
    have hi' : (i : F64) ≤ 199 := by
      have hle : i ≤ 199 := Nat.le_of_lt_succ hi
      exact_mod_cast hle
    have hc' : (c : F64) ≤ 400 := by exact_mod_cast hc
    have habs : |200 - (c : F64)| ≤ 200 :=
      abs_le.mpr ⟨by linarith, by linarith [(Nat.cast_nonneg c : (0 : F64) ≤ c)]⟩
    calc (i : F64) * |200 - (c : F64)| ≤ 199 * 200 := by gcongr
      _ = 39800 := by norm_num

/-- A series over all the sections is shown within one section for up to 400 of them. -/
theorem showsWithin_iff (hplot : UniformSamples plot) {strains : Strains}
    (hL : 0 < strains.sectionLen) (hc : 2 ≤ strains.series.count) {raw : String × List F64}
    (hraw : raw.2.length = strains.series.count) :
    ShowsWithin strains.sectionLen raw.2
      { label := raw.1, points := seriesPoints (timeFactor (sampled plot strains))
          (curveOf plot strains.sectionLen raw.2) } ↔ strains.series.count ≤ 400 := by
  have hlinear := hplot strains.sectionLen raw.2 hL (by omega)
  have hcurve := (curveOf_of_linear (by omega) hlinear).2
  have hfactor := timeFactor_sampled fun line _ => hplot.builds hL line.2
  rw [← drifts_le_iff hL, ShowsWithin, hcurve, hfactor, hraw]
  refine forall₂_congr fun i hi => ?_
  rw [getElem?_seriesPoints, Polyline.getElem?_samples _ _ hi, hraw]
  simp

/-- The resampled graph, line by line. -/
theorem axisAccurate_sampled_iff (hplot : UniformSamples plot) {strains : Strains}
    (hL : 0 < strains.sectionLen) (hc : 2 ≤ strains.series.count) :
    AxisAccurate strains (sampled plot strains) ↔ strains.series.count ≤ 400 := by
  rw [AxisAccurate, drawModeStrains_eq, sampled, StrainSeries.lines_map, List.map_map,
    List.forall₂_map_right_iff, List.forall₂_same]
  constructor
  · -- there is a series over all the sections
    intro h
    obtain ⟨raw, hmem, hlen⟩ := strains.series.drawn.exists_counted
    rw [StrainSeries.count_drawn] at hlen
    exact (showsWithin_iff hplot hL hc hlen).mp (h raw hmem hlen)
  · intro h raw _ hlen
    exact (showsWithin_iff hplot hL hc hlen).mpr h

/-- **The time axis is accurate to one section** exactly for graphs of up to 400 sections. -/
theorem axis_accurate_iff (hplot : UniformSamples plot) {map : Map} {mods : Mods}
    {strains : Strains} (hs : rosu.strains (graphDifficulty rosu mods) map = strains)
    (hL : 0 < strains.sectionLen) (hc : 2 ≤ strains.series.count) :
    ∃ g, GraphStrains.new rosu plot map mods = .ok g ∧
      (AxisAccurate strains g ↔ strains.series.count ≤ 400) :=
  ⟨_, GraphStrains.new_eq rosu hs (by omega) fun line _ => hplot.builds hL line.2,
    axisAccurate_sampled_iff hplot hL hc⟩

theorem uniformSamples_even : UniformSamples Plotting.even := fun _ _ _ _ => rfl

/-- A mania map of less than a second. -/
def twoSections : Strains := { sectionLen := 400, series := .mania [1, 2] }

/-- Its points stand 4 ms apart. -/
theorem step_twoSections :
    twoSections.sectionLen * (twoSections.series.count : F64) / 200 = 4 := by
  have hcount : twoSections.series.count = 2 := rfl
  have hlen : twoSections.sectionLen = 400 := rfl
  rw [hcount, hlen]
  norm_num

/-- The theorem at two sections. -/
theorem axis_accurate_of_two_sections :
    ∃ g, GraphStrains.new (RosuPp.straining twoSections) Plotting.even ByteArray.empty 0 = .ok g ∧
      (AxisAccurate twoSections g ↔ 2 ≤ 400) :=
  axis_accurate_iff (RosuPp.straining twoSections) uniformSamples_even rfl
    (show (0 : F64) < 400 by norm_num) (by decide)

/-- A mania map of four minutes. -/
def longStrains : Strains := { sectionLen := 400, series := .mania (List.replicate 600 1) }

theorem count_longStrains : longStrains.series.count = 600 := List.length_replicate

/-- Its last point, the end of the map, stands two sections too early. -/
theorem axis_of_long_map :
    ∃ g, GraphStrains.new (RosuPp.straining longStrains) Plotting.even ByteArray.empty 0 = .ok g ∧
      (∀ line ∈ drawModeStrains g, ∃ v, line.points[199]? = some (238800, v)) ∧
      Polyline.sampleTime (400 : F64) 600 newStrainCount 199 = 239600 ∧
      ¬ AxisAccurate longStrains g := by
  have hL : 0 < longStrains.sectionLen := by norm_num [longStrains]
  have hc : longStrains.series.count ≠ 0 := by rw [count_longStrains]; decide
  refine ⟨_, new_straining hc, fun line hline => ?_, ?_, ?_⟩
  · -- where the last point stands
    obtain ⟨v, hv⟩ := getElem?_drawn (fun line _ => builds_even _ line.2) hline
      (show 199 < newStrainCount by decide)
    refine ⟨v, hv.trans ?_⟩
    rw [count_longStrains]
    norm_num [longStrains]
  · -- and the time it was sampled at
    norm_num [Polyline.sampleTime, newStrainCount]
  · rw [axisAccurate_sampled_iff uniformSamples_even hL (by rw [count_longStrains]; decide),
      count_longStrains]
    decide

/-! ### The ends of the axis -/

/-- The right end of the axis is where point 198 stands. -/
theorem lastTimestamp_sampled (strains : Strains) :
    lastTimestamp (sampled plot strains) =
      198 * (strains.sectionLen * strains.series.count / 200) := by
  have hn : ((newStrainCount - 2 : Nat) : F64) = 198 := by norm_num [newStrainCount]
  have hd : ((newStrainCount : Nat) : F64) = 200 := by norm_num [newStrainCount]
  rw [lastTimestamp, hn, hd]
  simp only [sampled]
  ring

/-- Where point `i` stands: on the axis from its right end down to the smaller one of that end
    and the first millisecond. -/
theorem on_axis_iff {factor : F64} (hf : 0 < factor) (i : Nat) :
    (min (198 * factor) 1 ≤ i * factor ↔ 198 ≤ i ∨ 1 ≤ i * factor) ∧
      (i * factor ≤ 198 * factor ↔ i ≤ 198) := by
  constructor
  · -- not before the start, which is at most one millisecond
    rw [min_le_iff, mul_le_mul_iff_of_pos_right hf]
    norm_cast
  · rw [mul_le_mul_iff_of_pos_right hf]
    norm_cast

theorem exists_drawn (g : GraphStrains) : ∃ line, line ∈ drawModeStrains g := by
  obtain ⟨curve, hcurve, -⟩ := g.strains.series.exists_counted
  exact ⟨_, by rw [drawModeStrains_eq]; exact List.mem_map_of_mem hcurve⟩

/-- Every plotted point stands on the axis. -/
def PointsOnAxis (g : GraphStrains) : Prop :=
  ∀ line ∈ drawModeStrains g, ∀ p ∈ line.points, p.1 ∈ Set.Icc (xRange g).1 (xRange g).2

/-- **On no graph do all the points stand on the axis**: every line has its last point behind the
    end, and its first point, at 0, before the start. -/
theorem points_leave_the_axis (hplot : TakesAll plot) {map : Map} {mods : Mods} {strains : Strains}
    (hs : rosu.strains (graphDifficulty rosu mods) map = strains)
    (hL : 0 < strains.sectionLen) (hc : 1 ≤ strains.series.count) :
    ∃ g, GraphStrains.new rosu plot map mods = .ok g ∧
      (∀ line ∈ drawModeStrains g, ∀ i, i < newStrainCount → ∃ p, line.points[i]? = some p ∧
        p.1 = i * (strains.sectionLen * strains.series.count / 200) ∧
        ((xRange g).1 ≤ p.1 ↔ 198 ≤ i ∨ 1 ≤ p.1) ∧ (p.1 ≤ (xRange g).2 ↔ i ≤ 198)) ∧
      ¬ PointsOnAxis g := by
  have hbuilds : ∀ line ∈ strains.series.drawn.lines, Builds plot strains.sectionLen line.2 :=
    fun line _ => hplot strains.sectionLen line.2
  have hf : 0 < strains.sectionLen * strains.series.count / 200 := by
    have hc' : (0 : F64) < strains.series.count := by exact_mod_cast hc
    positivity
  -- point `i` of any line, by its index
  have hpoints : ∀ line ∈ drawModeStrains (sampled plot strains), ∀ i, i < newStrainCount →
      ∃ p, line.points[i]? = some p ∧
        p.1 = i * (strains.sectionLen * strains.series.count / 200) ∧
        ((xRange (sampled plot strains)).1 ≤ p.1 ↔ 198 ≤ i ∨ 1 ≤ p.1) ∧
        (p.1 ≤ (xRange (sampled plot strains)).2 ↔ i ≤ 198) := by
    intro line hline i hi
    obtain ⟨v, hv⟩ := getElem?_drawn hbuilds hline hi
    rw [xRange, lastTimestamp_sampled]
    exact ⟨_, hv, rfl, on_axis_iff hf i⟩
  refine ⟨_, GraphStrains.new_eq rosu hs (by omega) hbuilds, hpoints, ?_⟩
  intro hall
  obtain ⟨line, hline⟩ := exists_drawn (sampled plot strains)
  obtain ⟨p, hp, -, -, hlast⟩ := hpoints line hline 199 (by decide)
  have hle := hlast.mp (hall line hline p (List.mem_of_getElem? hp)).2
  omega

/-- The theorem at a single section. -/
theorem point_of_one_section_leaves_the_axis :
    ∃ g, GraphStrains.new (RosuPp.straining { sectionLen := 400, series := .mania [1] })
        Plotting.even ByteArray.empty 0 = .ok g ∧
      (∀ line ∈ drawModeStrains g, ∀ i, i < newStrainCount → ∃ p, line.points[i]? = some p ∧
        p.1 = i * (400 * (1 : Nat) / 200) ∧
        ((xRange g).1 ≤ p.1 ↔ 198 ≤ i ∨ 1 ≤ p.1) ∧ (p.1 ≤ (xRange g).2 ↔ i ≤ 198)) ∧
      ¬ PointsOnAxis g :=
  points_leave_the_axis (RosuPp.straining { sectionLen := 400, series := .mania [1] })
    builds_even rfl (show (0 : F64) < 400 by norm_num) (by decide)

/-- On an axis from 1 to 792 the points of two sections run from 0 to 796. -/
theorem axis_of_two_sections :
    ∃ g, GraphStrains.new (RosuPp.straining twoSections) Plotting.even ByteArray.empty 0 = .ok g ∧
      xRange g = (1, 792) ∧
      (∀ line ∈ drawModeStrains g, ∃ v w, line.points[0]? = some (0, v) ∧
        line.points[199]? = some (796, w)) ∧
      ¬ PointsOnAxis g := by
  have hrange : xRange (sampled Plotting.even twoSections) = (1, 792) := by
    rw [xRange, lastTimestamp_sampled, step_twoSections]
    norm_num
  have hends : ∀ line ∈ drawModeStrains (sampled Plotting.even twoSections), ∃ v w,
      line.points[0]? = some (0, v) ∧ line.points[199]? = some (796, w) := by
    intro line hline
    obtain ⟨v, hv⟩ := getElem?_drawn (fun line _ => builds_even _ line.2) hline
      (show 0 < newStrainCount by decide)
    obtain ⟨w, hw⟩ := getElem?_drawn (fun line _ => builds_even _ line.2) hline
      (show 199 < newStrainCount by decide)
    rw [step_twoSections] at hv hw
    exact ⟨v, w, hv.trans (by norm_num), hw.trans (by norm_num)⟩
  refine ⟨_, new_straining (by decide), hrange, hends, fun hall => ?_⟩
  obtain ⟨line, hline⟩ := exists_drawn (sampled Plotting.even twoSections)
  obtain ⟨v, w, hv, -⟩ := hends line hline
  have hstart := (hall line hline _ (List.mem_of_getElem? hv)).1
  rw [hrange] at hstart
  norm_num at hstart

end PpService
