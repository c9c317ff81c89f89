/-
  THE GRADUAL CALCULATIONS: `GradualDifficultyIter` and `GradualPerformanceCalc`, object after
  object.

  1. **What they emit.**  Each wraps an iterator of the library and numbers its results: if the
     library answers `attrs`, the wrapper emits one response for each of them, in order, with
     its index (a `u32`, so counted modulo 2^32).

  2. **Perfect play.**  `GradualPerformanceCalc` feeds the library a score state that gains one
     300 and one combo with each step.  The combo of a perfect play gains what the step is
     worth: an osu! slider is one step and worth more than one, while catch has a step for
     each fruit and droplet of a juice stream, worth one each.  So the combo fed is that of a
     perfect play on exactly those beatmaps all of whose steps are worth one.

  Which beatmaps these are is decided on prefixes: contributions that are all one have prefix
  sums equal to the lengths of the prefixes, and the other way round, by subtraction
  (`prefix_sums_iff`).  The sums are machine words, so the bound 2^32 on the combo of the whole
  map is needed.
-/
import Mathlib.Algebra.BigOperators.Group.List.Basic
import Mathlib.Algebra.GroupWithZero.Nat
import PpService.Lib.Chan
import PpService.Serving

namespace PpService

open Chan (Emits ofNext ofNext_eq_some ofNext_eq_none)
open Proto (BeatmapSource DifficultySettings GradualDifficultyRequest GradualDifficultyResponse
  GradualPerformanceRequest GradualPerformanceResponse ScoreParams)

variable {Map Mods GD GP : Type} (rosu : RosuPp Map Mods GD GP) (fs : Files)

/-! ## Where they start -/

/-- The difficulty stream starts from the loaded map. -/
theorem gradualDifficulty_of_load {req : GradualDifficultyRequest} {c : BeatmapCache Map}
    {map : Map}
    (hload : (Calculator.loadAndConvert rosu fs req.beatmap (.ofField req.mode)
      req.settings c).1 = .ok map) :
    (Calculator.gradualDifficulty rosu fs req c).1
      = .ok (.new (rosu.gradualDifficulty (Calculator.buildDifficulty rosu req.settings) map)
          (effectiveCs (rosu.data map).cs req.settings)) := by
  simp only [Calculator.gradualDifficulty, thenPure, hload, Except.bind]

/-- The state a performance calculation starts with. -/
def initialState (score : Option ScoreParams) : ScoreState :=
  installed score (fun score state => applyScoreParamsToState state score) {}

/-- The performance stream starts from the loaded map and the score of the request. -/
theorem gradualPerformance_of_load {req : GradualPerformanceRequest} {c : BeatmapCache Map}
    {map : Map}
    (hload : (Calculator.loadAndConvert rosu fs req.beatmap (.ofField req.mode)
      req.difficultySettings c).1 = .ok map) :
    (Calculator.gradualPerformance rosu fs req c).1
      = .ok ⟨rosu.gradualPerformance (Calculator.buildDifficulty rosu req.difficultySettings) map,
          initialState req.score, 0⟩ := by
  simp only [Calculator.gradualPerformance, thenPure, hload, Except.bind]
  rfl

/-! ## What they emit -/

theorem GradualDifficultyIter.next_of_some {it : GradualDifficultyIter GD} {gd : GD}
    {attrs : DifficultyAttributes} (h : rosu.nextDifficulty it.inner = (some attrs, gd)) :
    it.next rosu = (some (difficultyAttrsToGradualProto it.index attrs it.cs),
      ⟨gd, it.index + 1, it.cs⟩) := by
  simp only [GradualDifficultyIter.next, h]

theorem GradualDifficultyIter.next_of_none {it : GradualDifficultyIter GD} {gd : GD}
    (h : rosu.nextDifficulty it.inner = (none, gd)) :
    it.next rosu = (none, ⟨gd, it.index, it.cs⟩) := by
  simp only [GradualDifficultyIter.next, h]

theorem GradualPerformanceCalc.next_of_some {pp : GradualPerformanceCalc GP} {gp : GP}
    {attrs : PerformanceAttributes}
    (h : rosu.nextPerformance pp.inner pp.nextState = (some attrs, gp)) :
    pp.next rosu = (some { objectIndex := pp.index, pp := attrs.pp, stars := attrs.stars },
      ⟨gp, pp.nextState, pp.index + 1⟩) := by
  simp only [GradualPerformanceCalc.next, h]

theorem GradualPerformanceCalc.next_of_none {pp : GradualPerformanceCalc GP} {gp : GP}
    (h : rosu.nextPerformance pp.inner pp.nextState = (none, gp)) :
    pp.next rosu = (none, ⟨gp, pp.nextState, pp.index⟩) := by
  simp only [GradualPerformanceCalc.next, h]

/-- **The difficulty stream** numbers what the library answers. -/
theorem gradualDifficulty_emits {gd : GD} {attrs : List DifficultyAttributes}
    (h : Emits (ofNext rosu.nextDifficulty) gd attrs) (cs : F64) :
    Emits (ofNext (GradualDifficultyIter.next rosu)) (.new gd cs)
      (attrs.mapIdx fun i a => difficultyAttrsToGradualProto (UInt32.ofNat i) a cs) := by
  have hdone : ∀ gd n, (rosu.nextDifficulty gd).1 = none →
      (GradualDifficultyIter.next rosu ⟨gd, n, cs⟩).1 = none := by
    intro gd n hnone
    rcases hnext : rosu.nextDifficulty gd with ⟨_ | a, gd'⟩
    · rw [GradualDifficultyIter.next_of_none rosu hnext]
    · rw [hnext] at hnone
      cases hnone
  have hnumbered := h.numbered (fun gd n => GradualDifficultyIter.mk gd n cs)
    (fun n a => difficultyAttrsToGradualProto n a cs)
    (fun gd a gd' n hn => GradualDifficultyIter.next_of_some rosu hn) hdone 0
  simp only [UInt32.zero_add] at hnumbered
  exact hnumbered

/-- The library's gradual performance on its own, fed one perfect object after another. -/
def fedPerformance (p : GP × ScoreState) : Option PerformanceAttributes × (GP × ScoreState) :=
  let state := (GradualPerformanceCalc.mk p.1 p.2 0).nextState
  let (attrs, inner) := rosu.nextPerformance p.1 state
  (attrs, (inner, state))

/-- **The performance stream** numbers what the library answers to its states. -/
theorem gradualPerformance_emits {gp : GP} {state : ScoreState}
    {attrs : List PerformanceAttributes}
    (h : Emits (ofNext (fedPerformance rosu)) (gp, state) attrs) :
    Emits (ofNext (GradualPerformanceCalc.next rosu)) ⟨gp, state, 0⟩
      (attrs.mapIdx fun i a =>
        { objectIndex := UInt32.ofNat i, pp := a.pp, stars := a.stars }) := by
  have hmore : ∀ (p : GP × ScoreState) a p' n, fedPerformance rosu p = (some a, p') →
      GradualPerformanceCalc.next rosu ⟨p.1, p.2, n⟩
        = (some { objectIndex := n, pp := a.pp, stars := a.stars }, ⟨p'.1, p'.2, n + 1⟩) := by
    rintro ⟨gp, state⟩ a p' n hn
    unfold fedPerformance at hn
    rcases hnext : rosu.nextPerformance gp (GradualPerformanceCalc.mk gp state 0).nextState with
      ⟨_ | a', gp'⟩
    · simp only [hnext, Prod.mk.injEq, reduceCtorEq, false_and] at hn
    · simp only [hnext, Prod.mk.injEq, Option.some.injEq] at hn
      obtain ⟨rfl, rfl⟩ := hn
      exact GradualPerformanceCalc.next_of_some rosu hnext
  have hdone : ∀ (p : GP × ScoreState) n, (fedPerformance rosu p).1 = none →
      (GradualPerformanceCalc.next rosu ⟨p.1, p.2, n⟩).1 = none := by
    rintro ⟨gp, state⟩ n hnone
    unfold fedPerformance at hnone
    rcases hnext : rosu.nextPerformance gp (GradualPerformanceCalc.mk gp state 0).nextState with
      ⟨_ | a, gp'⟩
    · show (GradualPerformanceCalc.next rosu ⟨gp, state, n⟩).1 = none
      rw [GradualPerformanceCalc.next_of_none rosu hnext]
    · simp only [hnext, reduceCtorEq] at hnone
  have hnumbered := h.numbered (fun p n => GradualPerformanceCalc.mk p.1 p.2 n)
    (fun n a => ({ objectIndex := n, pp := a.pp, stars := a.stars } : GradualPerformanceResponse))
    hmore hdone 0
  simp only [UInt32.zero_add] at hnumbered
  exact hnumbered

/-! ## Perfect play -/

/-- The score state moves on with every call, answered or not. -/
theorem GradualPerformanceCalc.next_state (pp : GradualPerformanceCalc GP) :
    (pp.next rosu).2.state = pp.nextState := by
  rcases hnext : rosu.nextPerformance pp.inner pp.nextState with ⟨_ | attrs, gp⟩
  · rw [next_of_none rosu hnext]
  · rw [next_of_some rosu hnext]

/-- The score state that the `i`-th call feeds to the library: the state after `i` calls, moved on
    once more. -/
def fedState (pp : GradualPerformanceCalc GP) (i : Nat) : ScoreState :=
  ((fun pp => (pp.next rosu).2)^[i] pp).nextState

/-- The score state after `k` more objects, whatever the objects and the mode. -/
def ScoreState.counted (k : Nat) (st : ScoreState) : ScoreState :=
  { st with n300 := st.n300 + UInt32.ofNat k, maxCombo := st.maxCombo + UInt32.ofNat k }

/-- One step and `k` steps are `k + 1` steps. -/
theorem ofNat_succ_add (n : UInt32) (k : Nat) :
    n + 1 + UInt32.ofNat k = n + UInt32.ofNat (k + 1) := by
  calc n + 1 + UInt32.ofNat k
      = n + (UInt32.ofNat 1 + UInt32.ofNat k) := UInt32.add_assoc ..
    _ = n + UInt32.ofNat (1 + k) := by rw [UInt32.ofNat_add 1 k]
    _ = n + UInt32.ofNat (k + 1) := by rw [Nat.add_comm 1 k]

/-- Every call adds one to both counters, so `i + 1` calls add `i + 1`. -/
theorem fedState_eq (pp : GradualPerformanceCalc GP) (i : Nat) :
    fedState rosu pp i = pp.state.counted (i + 1) := by
  induction i generalizing pp with
  | zero => rfl
  | succ i ih =>
    have hfirst : fedState rosu pp (i + 1) = fedState rosu (pp.next rosu).2 i := rfl
    rw [hfirst, ih, GradualPerformanceCalc.next_state]
    simp only [ScoreState.counted, GradualPerformanceCalc.nextState, ofNat_succ_add]

/-- The `max_combo` that the `i`-th call of the gradual difficulty reports, if it answers. -/
def reportedCombo (it : GradualDifficultyIter GD) (i : Nat) : Option UInt32 :=
  ((fun it => (it.next rosu).2)^[i] it).next rosu |>.1.map (·.maxCombo)

/-- The library's own combo. -/
theorem reportedCombo_eq {gd : GD} {attrs : List DifficultyAttributes}
    (h : Emits (ofNext rosu.nextDifficulty) gd attrs) (cs : F64) {i : Nat}
    (hi : i < attrs.length) :
    reportedCombo rosu (.new gd cs) i = some attrs[i].maxCombo := by
  have hanswer := (gradualDifficulty_emits rosu h cs).answer (i := i) (by simpa using hi)
  unfold reportedCombo
  rw [hanswer]
  simp [difficultyAttrsToGradualProto]

/-- The combo contributions of a list of objects are all one if and only if every prefix of
    them sums to its length, counted in 32-bit words. -/
theorem prefix_sums_iff {combo : List Nat}
    (hfit : ∀ i < combo.length, (combo.take (i + 1)).sum < 2 ^ 32) :
    (∀ i < combo.length, (combo.take (i + 1)).sum = (i + 1) % 2 ^ 32) ↔ ∀ n ∈ combo, n = 1 := by
  have hsucc : ∀ i (hi : i < combo.length),
      (combo.take (i + 1)).sum = (combo.take i).sum + combo[i] :=
    fun i hi => List.sum_take_succ combo i hi
  constructor
  · intro hsums
    -- the words do not wrap: the sum of a prefix never falls below that of the first object
    have hfirst : ∀ i < combo.length, 1 ≤ (combo.take (i + 1)).sum := by
      intro i hi
      induction i with
      | zero =>
        have hone := hsums 0 hi
        omega
      | succ i ih =>
        have hprev := ih (by omega)
        have hstep := hsucc (i + 1) hi
        omega
    have hshort : combo.length < 2 ^ 32 := by
      by_contra hlong
      have hwrap := hsums (2 ^ 32 - 1) (by omega)
      have hpos := hfirst (2 ^ 32 - 1) (by omega)
      rw [hwrap] at hpos
      omega
    intro n hn
    obtain ⟨i, hi, rfl⟩ := List.getElem_of_mem hn
    have hthis := hsums i hi
    have hstep := hsucc i hi
    cases i with
    | zero =>
      simp only [List.take_zero, List.sum_nil] at hstep
      omega
    | succ i =>
      have hprev := hsums i (by omega)
      omega
  · -- objects worth one each add up to their number
    intro hones i hi
    have hsum : (combo.take (i + 1)).sum = i + 1 := by
      rw [List.sum_eq_card_nsmul _ 1 fun n hn => hones n (List.mem_of_mem_take hn),
        List.length_take, Nat.min_eq_left hi]
      exact Nat.mul_one (i + 1)
    have hbound := hfit i hi
    omega

/-- What the library documents about the combo of an osu! or catch map: each result of its
    gradual iterator is worth a contribution, and the `i`-th result has the sum of the first
    `i + 1`.  An osu! result is an object, a slider worth its head, ticks, repeats and tail
    together; a catch result is a single fruit or droplet. -/
def ComboSums (contributions : Difficulty Mods → Map → List Nat) : Prop :=
  ∀ d map attrs, (rosu.data map).mode = .osu ∨ (rosu.data map).mode = .catch_ →
    Emits (ofNext rosu.nextDifficulty) (rosu.gradualDifficulty d map) attrs →
    attrs.length = (contributions d map).length ∧
      ∀ i (hi : i < attrs.length),
        attrs[i].maxCombo.toNat = ((contributions d map).take (i + 1)).sum

/-- **The combo that is fed is the combo of a perfect play** if and only if each result of the
    library's iterator over the converted map is worth one.  Both endpoints get the same
    beatmap, mode and settings, and the performance no score parameters. -/
theorem gradual_combo_agrees_iff {contributions : Difficulty Mods → Map → List Nat}
    (hcombo : ComboSums rosu contributions) {source : Option BeatmapSource}
    {mode : Option Int32} {settings : Option DifficultySettings} {c c' : BeatmapCache Map}
    {map : Map} {attrs : List DifficultyAttributes}
    (hload : (Calculator.loadAndConvert rosu fs source (.ofField mode) settings c).1 = .ok map)
    (hload' : (Calculator.loadAndConvert rosu fs source (.ofField mode) settings c').1 = .ok map)
    (hmode : (rosu.data map).mode = .osu ∨ (rosu.data map).mode = .catch_)
    (hattrs : Emits (ofNext rosu.nextDifficulty)
      (rosu.gradualDifficulty (Calculator.buildDifficulty rosu settings) map) attrs) :
    ∃ it pp,
      (Calculator.gradualDifficulty rosu fs { beatmap := source, mode, settings } c).1 = .ok it ∧
      (Calculator.gradualPerformance rosu fs
        { beatmap := source, mode, difficultySettings := settings, score := none } c').1 = .ok pp ∧
      ((∀ i < attrs.length, reportedCombo rosu it i = some (fedState rosu pp i).maxCombo) ↔
        ∀ n ∈ contributions (Calculator.buildDifficulty rosu settings) map, n = 1) := by
  obtain ⟨hlength, hsums⟩ := hcombo _ map attrs hmode hattrs
  refine ⟨.new (rosu.gradualDifficulty (Calculator.buildDifficulty rosu settings) map)
      (effectiveCs (rosu.data map).cs settings),
    ⟨rosu.gradualPerformance (Calculator.buildDifficulty rosu settings) map, {}, 0⟩, ?_, ?_, ?_⟩
  · -- both streams start from the same map
    exact gradualDifficulty_of_load rosu fs hload
  · exact gradualPerformance_of_load rosu fs hload'
  · have hfit : ∀ i < (contributions (Calculator.buildDifficulty rosu settings) map).length,
        ((contributions (Calculator.buildDifficulty rosu settings) map).take (i + 1)).sum
          < 2 ^ 32 := by
      intro i hi
      rw [← hsums i (by omega)]
      exact UInt32.toNat_lt _
    rw [← prefix_sums_iff hfit, ← hlength]
    -- step by step: what is reported is the sum, what is fed is the number of objects
    refine forall_congr' fun i => forall_congr' fun hi => ?_
    rw [reportedCombo_eq rosu hattrs _ hi, fedState_eq, ← hsums i hi, Option.some.injEq,
      ← UInt32.toNat_inj]
    show attrs[i].maxCombo.toNat = (0 + UInt32.ofNat (i + 1)).toNat ↔ _
    rw [UInt32.zero_add, UInt32.toNat_ofNat']

/-! ### Two maps -/

/-- A library whose gradual difficulty answers a list. -/
def RosuPp.answering (attrs : List DifficultyAttributes) :
    RosuPp ByteArray UInt32 (List DifficultyAttributes) (List PerformanceAttributes) :=
  { RosuPp.sample with gradualDifficulty := fun _ _ => attrs }

theorem emits_popHead {α : Type} (l : List α) : Emits (ofNext popHead) l l := by
  induction l with
  | nil => exact .done rfl
  | cons a l ih => exact .more rfl ih

/-- A library that parses `songA` and does not suspect it loads it. -/
theorem load_songA {rosu : RosuPp Map Mods GD GP} {map : Map}
    (hparse : rosu.fromBytes songA.toUTF8 = .ok map) (hpass : rosu.checkSuspicion map = .ok ())
    (settings : Option DifficultySettings) :
    (Calculator.loadAndConvert rosu noFiles (some (contentSource songA)) (.ofField none) settings
      (.new 1)).1 = .ok map := by
  have hbytes : requestBytes noFiles (some (contentSource songA)) = .ok songA.toUTF8 := rfl
  rw [Calculator.loadAndConvert, loadBeatmap_of_ok _ _ hbytes]
  simp only [thenPure]
  rw [parseBeatmapCached_new, (parseBytes_eq_ok rosu).mpr hparse]
  simp only [Except.bind, Calculator.checkSuspicion, hpass]
  rfl

theorem load_answering (attrs : List DifficultyAttributes) (settings : Option DifficultySettings) :
    (Calculator.loadAndConvert (RosuPp.answering attrs) noFiles (some (contentSource songA))
      (.ofField none) settings (.new 1)).1 = .ok songA.toUTF8 :=
  load_songA rfl rfl settings

/-- The combo of its map is what the answers add up to. -/
theorem comboSums_answering {attrs : List DifficultyAttributes} {combo : List Nat}
    (hlength : attrs.length = combo.length)
    (hsums : ∀ i (hi : i < attrs.length), attrs[i].maxCombo.toNat = (combo.take (i + 1)).sum) :
    ComboSums (RosuPp.answering attrs) fun _ _ => combo := by
  intro d map attrs' _ hemits
  obtain rfl : attrs = attrs' := (emits_popHead attrs).unique hemits
  exact ⟨hlength, hsums⟩

/-- One slider worth three: the difficulty reports a combo of three, one is fed. -/
theorem gradual_combo_of_slider :
    ComboSums (RosuPp.answering [.ofCombo 3]) (fun _ _ => [3]) ∧
    ∃ it pp,
      (Calculator.gradualDifficulty (RosuPp.answering [.ofCombo 3]) noFiles
        { beatmap := some (contentSource songA), mode := none, settings := none } (.new 1)).1
          = .ok it ∧
      (Calculator.gradualPerformance (RosuPp.answering [.ofCombo 3]) noFiles
        { beatmap := some (contentSource songA), mode := none, difficultySettings := none
          score := none } (.new 1)).1 = .ok pp ∧
      reportedCombo (RosuPp.answering [.ofCombo 3]) it 0 = some 3 ∧
      (fedState (RosuPp.answering [.ofCombo 3]) pp 0).maxCombo = 1 := by
  have hload := load_answering [.ofCombo 3] none
  have hcombo : ComboSums (RosuPp.answering [.ofCombo 3]) fun _ _ => [3] := by
    refine comboSums_answering rfl fun i hi => ?_
    match i, hi with
    | 0, _ => rfl
  refine ⟨hcombo, .new [.ofCombo 3] (effectiveCs 5 none), ⟨[], {}, 0⟩, ?_, ?_, ?_, ?_⟩
  · exact gradualDifficulty_of_load _ noFiles hload
  · exact gradualPerformance_of_load _ noFiles hload
  · rfl
  · rfl

/-- Two objects worth one each: the two combos agree. -/
theorem gradual_combo_of_circles :
    ∃ it pp,
      (Calculator.gradualDifficulty (RosuPp.answering [.ofCombo 1, .ofCombo 2]) noFiles
        { beatmap := some (contentSource songA), mode := none, settings := none } (.new 1)).1
          = .ok it ∧
      (Calculator.gradualPerformance (RosuPp.answering [.ofCombo 1, .ofCombo 2]) noFiles
        { beatmap := some (contentSource songA), mode := none, difficultySettings := none
          score := none } (.new 1)).1 = .ok pp ∧
      ((∀ i < 2, reportedCombo (RosuPp.answering [.ofCombo 1, .ofCombo 2]) it i
          = some (fedState (RosuPp.answering [.ofCombo 1, .ofCombo 2]) pp i).maxCombo) ↔
        ∀ n ∈ [1, 1], n = 1) := by
  have hcombo : ComboSums (RosuPp.answering [.ofCombo 1, .ofCombo 2]) fun _ _ => [1, 1] := by
    refine comboSums_answering rfl fun i hi => ?_
    match i, hi with
    | 0, _ => rfl
    | 1, _ => rfl
  exact gradual_combo_agrees_iff _ noFiles hcombo (load_answering _ none) (load_answering _ none)
    (Or.inl rfl) (emits_popHead _)

end PpService
