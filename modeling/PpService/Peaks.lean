/-
  WHICH PEAKS THE STRAIN GRAPH SHOWS.

  However many sections a map has, `create_curve` takes 200 samples of each series.  A peak
  between two samples is drawn lower than it is, by a part that grows with the number of
  sections: of a series of `c` sections it keeps at least `1 - (c - 1) / 398` of its height
  (`graph_keeps_peaks`).  From 399 sections on that is nothing: a peak can fall between two
  samples, and if it is all there is, the graph of a map with strains is refused for having
  none (`high_peaks_are_drawn_iff`).

  The interpolation is relied on to be linear with equidistant samples (`UniformSamples`).  Then
  some sample is at most half a sample distance away from any element
  (`Polyline.exists_sample_ge`), and the curve there is above the tent of the peak.  The
  converse is a single spike, with all samples two elements apart or more
  (`Polyline.samples_spike`).
-/
import PpService.Settings
import PpService.StrainGraph

namespace PpService

variable {Map Mods GD GP : Type} (rosu : RosuPp Map Mods GD GP) {plot : Plotting}

/-- The part of its height that a peak keeps in a series of `c` sections. -/
def keptPart (c : Nat) : F64 := 1 - ((c : F64) - 1) / 398

/-- A peak keeps some part in a series of up to 398 sections. -/
theorem keptPart_pos_iff (c : Nat) : 0 < keptPart c ↔ c ≤ 398 := by
  have hcast : c ≤ 398 ↔ (c : F64) < 399 := by
    constructor
    · intro h
      exact_mod_cast Nat.lt_succ_of_le h
    · intro h
      exact Nat.le_of_lt_succ (by exact_mod_cast h)
  rw [keptPart, hcast, sub_pos, div_lt_one (by norm_num)]
  constructor <;> intro h <;> linarith

/-- Every strain of a series has a point of the curve that keeps its part of it. -/
theorem exists_point_ge (hplot : UniformSamples plot) {sectionLen : F64} (hL : 0 < sectionLen)
    {raw : List F64} (h0 : ∀ v ∈ raw, 0 ≤ v) {v : F64} (hv : v ∈ raw) :
    ∃ p ∈ curveOf plot sectionLen raw, keptPart raw.length * v ≤ p := by
  have hpoint : ∀ u : F64, u ∈ List.replicate newStrainCount u := fun u =>
    List.mem_replicate.mpr ⟨by decide, rfl⟩
  rcases createCurve_cases plot sectionLen raw with ⟨rfl, -⟩ | ⟨u, rfl, hc⟩ | ⟨h2, -⟩
  · -- no strain
    cases hv
  · -- a single one, which the whole curve is at
    obtain rfl := List.mem_singleton.mp hv
    refine ⟨v, by rw [curveOf, hc]; exact hpoint v, ?_⟩
    simp [keptPart]
  · -- two or more, by the samples of the curve
    rw [(curveOf_of_linear h2 (hplot sectionLen raw hL h2)).2]
    obtain ⟨p, hp, hle⟩ := Polyline.exists_sample_ge hL.ne' h2 (show 2 ≤ newStrainCount by decide)
      h0 hv
    have hpart : keptPart raw.length =
        1 - ((raw.length : F64) - 1) / (2 * ((newStrainCount : F64) - 1)) := by
      rw [keptPart]
      norm_num [newStrainCount]
    exact ⟨p, hp, by rw [hpart]; exact hle⟩

/-- The line that is drawn of a series. -/
def lineOf (plot : Plotting) (strains : Strains) (raw : String × List F64) : GraphSeries where
  label := raw.1
  points := seriesPoints (timeFactor (sampled plot strains)) (curveOf plot strains.sectionLen raw.2)

/-- The lines of the resampled graph, series by series. -/
theorem drawModeStrains_sampled (strains : Strains) :
    drawModeStrains (sampled plot strains) =
      strains.series.drawn.lines.map (lineOf plot strains) := by
  rw [drawModeStrains_eq]
  show ((strains.series.drawn.map (curveOf plot strains.sectionLen)).lines).map _ = _
  rw [StrainSeries.lines_map, List.map_map]
  rfl

/-- The line shows the peaks of the series: every strain has a point that keeps its part.  The label
    is the series' own, so it is on the line that one looks at. -/
def KeepsPeaks (raw : String × List F64) (line : GraphSeries) : Prop :=
  line.label = raw.1 ∧ ∀ v ∈ raw.2, ∃ p ∈ line.points, keptPart raw.2.length * v ≤ p.2

section

variable {strains : Strains}

/-- Each line keeps the peaks of its series. -/
theorem keepsPeaks_lineOf (hplot : UniformSamples plot) (hL : 0 < strains.sectionLen)
    (hmap : Plottable strains.series) {raw : String × List F64}
    (hraw : raw ∈ strains.series.drawn.lines) : KeepsPeaks raw (lineOf plot strains raw) := by
  refine ⟨rfl, fun v hv => ?_⟩
  obtain ⟨p, hp, hle⟩ := exists_point_ge hplot hL (hmap.drawn_nonneg raw hraw) hv
  obtain ⟨i, hi, rfl⟩ := List.mem_iff_getElem.mp hp
  exact ⟨_, List.mem_mapIdx.mpr ⟨i, hi, rfl⟩, hle⟩

/-- The greatest point of the graph is above a bound if and only if some point is. -/
theorem max_le_iff (hplot : UniformSamples plot) (hL : 0 < strains.sectionLen)
    (hmap : Plottable strains.series) (bound : F64) :
    calculateMaxStrain (sampled plot strains).strains ≤ bound ↔
      ∀ raw ∈ strains.series.drawn.lines,
        ∀ p ∈ curveOf plot strains.sectionLen raw.2, p ≤ bound := by
  have hlen := length_sampled fun line _ => hplot.builds hL line.2
  have h0 : ∀ line ∈ (sampled plot strains).strains.series.lines, ∀ v ∈ line.2, 0 ≤ v := by
    intro line hline
    obtain ⟨raw, hraw, rfl⟩ := mem_sampled_lines.mp hline
    refine curveOf_nonneg (fun h2 => ⟨_, hplot strains.sectionLen raw.2 hL h2, fun p hp => ?_⟩)
      (hmap.drawn_nonneg raw hraw)
    exact Polyline.between_of_mem_samples h2 hp
  obtain ⟨⟨line, hline, hmem⟩, hgreatest⟩ := calculateMaxStrain_isGreatest hlen h0
  constructor
  · intro hmax raw hraw p hp
    exact (hgreatest ⟨_, mem_sampled_lines.mpr ⟨raw, hraw, rfl⟩, hp⟩).trans hmax
  · intro hall
    obtain ⟨raw, hraw, rfl⟩ := mem_sampled_lines.mp hline
    exact hall raw hraw _ hmem

end

section

variable {rosu} {map : Map} {mods : Mods} {strains : Strains}

/-- The graph is refused exactly when no point is above the threshold. -/
theorem refused_iff (hplot : UniformSamples plot)
    (hs : rosu.strains (graphDifficulty rosu mods) map = strains) (hL : 0 < strains.sectionLen)
    (hmap : Plottable strains.series) (width height : UInt32) (background : Option ByteArray) :
    renderStrainGraph rosu plot map mods width height background = .error .noStrainData ↔
      ∀ raw ∈ strains.series.drawn.lines, ∀ p ∈ curveOf plot strains.sectionLen raw.2,
        p ≤ f64Epsilon := by
  have hnew := GraphStrains.new_eq rosu hs hmap.sections fun line _ => hplot.builds hL line.2
  rw [renderStrainGraph_refused_iff rosu hnew, max_le_iff hplot hL hmap]

/-- A strain whose part is above the threshold keeps the graph from being refused. -/
theorem not_refused (hplot : UniformSamples plot)
    (hs : rosu.strains (graphDifficulty rosu mods) map = strains) (hL : 0 < strains.sectionLen)
    (hmap : Plottable strains.series) {raw : String × List F64}
    (hraw : raw ∈ strains.series.drawn.lines) {v : F64} (hv : v ∈ raw.2)
    (hhigh : f64Epsilon < keptPart raw.2.length * v) (width height : UInt32)
    (background : Option ByteArray) :
    renderStrainGraph rosu plot map mods width height background ≠ .error .noStrainData := by
  rw [Ne, refused_iff hplot hs hL hmap]
  intro hall
  obtain ⟨p, hp, hle⟩ := exists_point_ge hplot hL (hmap.drawn_nonneg raw hraw) hv
  exact absurd (hall raw hraw p hp) (not_le.mpr (hhigh.trans_le hle))

end

/-- **The graph keeps the peaks**: on its own line, every strain of a series of `c` sections is
    drawn with at least the part `1 - (c - 1) / 398` of its height, and if that is above the
    threshold the graph is not refused.  The series are those that have a line (`drawn`): for
    osu! the second is the slider aim, the aim less the aim without sliders, which
    `GraphStrains::new` computes in the place of the latter. -/
theorem graph_keeps_peaks (hplot : UniformSamples plot) {map : Map} {mods : Mods}
    {strains : Strains} (hs : rosu.strains (graphDifficulty rosu mods) map = strains)
    (hL : 0 < strains.sectionLen) (hmap : Plottable strains.series) (width height : UInt32)
    (background : Option ByteArray) :
    ∃ g, GraphStrains.new rosu plot map mods = .ok g ∧
      List.Forall₂ KeepsPeaks strains.series.drawn.lines (drawModeStrains g) ∧
      ∀ raw ∈ strains.series.drawn.lines, ∀ v ∈ raw.2, f64Epsilon < keptPart raw.2.length * v →
        renderStrainGraph rosu plot map mods width height background ≠ .error .noStrainData := by
  have hnew := GraphStrains.new_eq rosu hs hmap.sections fun line _ => hplot.builds hL line.2
  refine ⟨_, hnew, ?_, fun raw hraw v hv hhigh => ?_⟩
  · -- line by line
    rw [drawModeStrains_sampled, List.forall₂_map_right_iff, List.forall₂_same]
    exact fun raw hraw => keepsPeaks_lineOf hplot hL hmap hraw
  · exact not_refused hplot hs hL hmap hraw hv hhigh width height background

/-- The theorem at two sections. -/
theorem graph_keeps_peaks_of_two_sections :
    ∃ g, GraphStrains.new (RosuPp.straining twoSections) Plotting.even ByteArray.empty 0 = .ok g ∧
      List.Forall₂ KeepsPeaks twoSections.series.drawn.lines (drawModeStrains g) ∧
      ∀ raw ∈ twoSections.series.drawn.lines, ∀ v ∈ raw.2,
        f64Epsilon < keptPart raw.2.length * v →
          renderStrainGraph (RosuPp.straining twoSections) Plotting.even ByteArray.empty 0 0 0
            none ≠ .error .noStrainData := by
  have hmap : Plottable twoSections.series := by
    refine ⟨by decide, ?_, trivial⟩
    simp [twoSections, StrainSeries.lines]
  have hL : 0 < twoSections.sectionLen := by norm_num [twoSections]
  exact graph_keeps_peaks (RosuPp.straining twoSections) uniformSamples_even rfl hL hmap 0 0 none

/-! ## A peak that is not there -/

theorem strains_straining (strains : Strains) :
    (RosuPp.straining strains).strains (graphDifficulty (RosuPp.straining strains) 0)
      ByteArray.empty = strains := rfl

/-- A mania map of `c` sections, all quiet but the second. -/
def spikeStrains (c : Nat) (v : F64) : Strains :=
  { sectionLen := 1, series := .mania (Polyline.spike c v) }

/-- Its strains are as a map has them. -/
theorem plottable_spikeStrains {c : Nat} (hc : 2 ≤ c) {v : F64} (hv : 0 ≤ v) :
    Plottable (spikeStrains c v).series := by
  refine ⟨?_, ?_, trivial⟩
  · have hlen : (spikeStrains c v).series.count = c := Polyline.length_spike hc v
    omega
  · intro line hline a ha
    obtain rfl : line = ("Strain", Polyline.spike c v) := List.mem_singleton.mp hline
    simp only [Polyline.spike, List.mem_cons, List.mem_replicate] at ha
    rcases ha with rfl | rfl | ⟨-, rfl⟩
    · exact le_rfl
    · exact hv
    · exact le_rfl

/-- From 399 sections on its graph is refused, however high the peak. -/
theorem spike_refused (hplot : UniformSamples plot) {c : Nat} (hc : 399 ≤ c) {v : F64} (hv : 0 ≤ v)
    (width height : UInt32) (background : Option ByteArray) :
    renderStrainGraph (RosuPp.straining (spikeStrains c v)) plot ByteArray.empty 0 width height
      background = .error .noStrainData := by
  have hL : 0 < (spikeStrains c v).sectionLen := one_pos
  rw [refused_iff hplot (strains_straining _) hL (plottable_spikeStrains (by omega) hv)]
  intro raw hraw p hp
  obtain rfl : raw = ("Strain", Polyline.spike c v) := List.mem_singleton.mp hraw
  have h2 : 2 ≤ (Polyline.spike c v).length := by
    rw [Polyline.length_spike (by omega)]
    omega
  rw [(curveOf_of_linear h2 (hplot _ _ hL h2)).2] at hp
  -- a sample is never less than two elements from the next, so none is near the spike
  have hfar : 2 * newStrainCount ≤ c + 1 := by
    show 2 * 200 ≤ c + 1
    omega
  rw [Polyline.samples_spike hL.ne' (by decide) hfar v p hp]
  norm_num [f64Epsilon]

/-- **How long a map may be** for its strains to be seen: peaks that are high enough keep the
    graph from being refused if and only if the series have at most 398 sections. -/
theorem high_peaks_are_drawn_iff (hplot : UniformSamples plot) (c : Nat) (width height : UInt32)
    (background : Option ByteArray) :
    (∃ bound, ∀ strains : Strains, 0 < strains.sectionLen → Plottable strains.series →
      (∀ raw ∈ strains.series.drawn.lines, raw.2.length = c) →
      (∃ raw ∈ strains.series.drawn.lines, ∃ v ∈ raw.2, bound < v) →
      renderStrains plot strains width height background ≠ .error .noStrainData) ↔ c ≤ 398 := by
  constructor
  · -- a spike higher than any bound is not seen
    rintro ⟨bound, hdrawn⟩
    by_contra hlong
    have hv : 0 ≤ max bound 0 + 1 := by positivity
    refine hdrawn (spikeStrains c (max bound 0 + 1)) one_pos (plottable_spikeStrains (by omega) hv)
      ?_ ?_ (spike_refused hplot (by omega) hv width height background)
    · intro raw hraw
      obtain rfl := List.mem_singleton.mp hraw
      exact Polyline.length_spike (by omega) _
    · refine ⟨_, List.mem_singleton_self _, max bound 0 + 1, by simp [Polyline.spike], ?_⟩
      exact lt_of_le_of_lt (le_max_left bound 0) (lt_add_one _)
  · -- a part of a high enough peak is above the threshold
    intro hshort
    have hpart : 0 < keptPart c := (keptPart_pos_iff c).mpr hshort
    refine ⟨f64Epsilon / keptPart c, fun strains hL hmap hlen hpeak => ?_⟩
    obtain ⟨raw, hraw, v, hv, hhigh⟩ := hpeak
    have hkeeps : f64Epsilon < keptPart raw.2.length * v := by
      rw [hlen raw hraw, mul_comm]
      exact (div_lt_iff₀ hpart).mp hhigh
    exact not_refused hplot (strains_straining strains) hL hmap hraw hv hkeeps width height
      background

/-- The theorem at 600 sections. -/
theorem high_peaks_of_long_map :
    ¬ ∃ bound, ∀ strains : Strains, 0 < strains.sectionLen → Plottable strains.series →
      (∀ raw ∈ strains.series.drawn.lines, raw.2.length = 600) →
      (∃ raw ∈ strains.series.drawn.lines, ∃ v ∈ raw.2, bound < v) →
      renderStrains Plotting.even strains 0 0 none ≠ .error .noStrainData := by
  rw [high_peaks_are_drawn_iff uniformSamples_even 600 0 0 none]
  decide

end PpService
