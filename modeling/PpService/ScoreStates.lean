/-
  THE SCORE STATES of a gradual performance: what `GradualPerformanceCalc` starts from, and
  what it feeds to the library from then on.

  The state starts with the score parameters of the request and gains, with every call, one
  300 and one combo (`fedState_eq`), in `u32` words and whatever the mode.  Three things can be
  asked of it:

  1. **the maximum judgement**: a perfect play gains MAXes in mania (`n_geki`) and 300s
     elsewhere, so the states fed are those of a perfect play in every mode but mania;

  2. **the range**: the counters start where the client says and are exact until one of them
     reaches 2^32;

  3. **the start**: a performance calculation takes tick and slider end counts into account
     (`apply_score_params`), the starting state has no such counts.

  Each is an equivalence: the first between the modes and the judgement, the second between the
  range and two bounds on what the client says, the third between the start and three counts of
  the request.  What they have in common is `fedState_eq`, the state in closed form, and the
  cascades read field by field (`initialState_eq`, `countsOf_applyScoreParams`).
-/
import PpService.Gradual

namespace PpService

open Proto (GradualPerformanceRequest ScoreParams)

variable {Map Mods GD GP : Type} (rosu : RosuPp Map Mods GD GP) (fs : Files)

/-! ## The maximum judgement -/

/-- The score state after `k` more objects of a perfect play: `k` more maximum judgements of the
    mode, and `k` more combo. -/
def ScoreState.perfect (mode : GameMode) (k : Nat) (st : ScoreState) : ScoreState :=
  match mode with
  | .osu | .taiko | .catch_ =>
    { st with n300 := st.n300 + UInt32.ofNat k, maxCombo := st.maxCombo + UInt32.ofNat k }
  | .mania =>
    { st with nGeki := st.nGeki + UInt32.ofNat k, maxCombo := st.maxCombo + UInt32.ofNat k }

/-- The two counters that a perfect play of `k` objects moves do not overflow: the combo, and
    the maximum judgement of the mode. -/
def ScoreState.Fits (mode : GameMode) (k : Nat) (st : ScoreState) : Prop :=
  st.maxCombo.toNat + k < 2 ^ 32 ∧
    match mode with
    | .osu | .taiko | .catch_ => st.n300.toNat + k < 2 ^ 32
    | .mania => st.nGeki.toNat + k < 2 ^ 32

/-- Adding a number of objects that fits changes a counter. -/
theorem add_ofNat_ne {n : UInt32} {k : Nat} (hk : 0 < k) (hfit : n.toNat + k < 2 ^ 32) :
    n + UInt32.ofNat k ≠ n := by
  intro heq
  have hnat := congrArg UInt32.toNat heq
  rw [UInt32.toNat_add, UInt32.toNat_ofNat'] at hnat
  omega

/-- The 300s that are counted are the maximum judgements in every mode but mania. -/
theorem counted_eq_perfect_iff {mode : GameMode} {k : Nat} {st : ScoreState} (hk : 0 < k)
    (hfit : st.Fits mode k) : st.counted k = st.perfect mode k ↔ mode ≠ .mania := by
  constructor
  · rintro heq rfl
    -- in mania the MAXes must have moved on, and they have not
    have hgeki : st.nGeki = st.nGeki + UInt32.ofNat k := congrArg ScoreState.nGeki heq
    exact add_ofNat_ne hk hfit.2 hgeki.symm
  · -- in the other three modes both add to the same two counters
    intro hmode
    cases mode with
    | osu => rfl
    | taiko => rfl
    | catch_ => rfl
    | mania => exact absurd rfl hmode

/-- **Only maximum judgements** are assumed in exactly those streams that are not mania: there
    the state fed by the `i`-th call is that of a perfect play of `i + 1` more objects, and in
    mania it never is. -/
theorem gradual_judgements_agree_iff {req : GradualPerformanceRequest} {c : BeatmapCache Map}
    {map : Map}
    (hload : (Calculator.loadAndConvert rosu fs req.beatmap (.ofField req.mode)
      req.difficultySettings c).1 = .ok map) :
    ∃ pp, (Calculator.gradualPerformance rosu fs req c).1 = .ok pp ∧
      ∀ i, (initialState req.score).Fits (rosu.data map).mode (i + 1) →
        (fedState rosu pp i = (initialState req.score).perfect (rosu.data map).mode (i + 1) ↔
          (rosu.data map).mode ≠ .mania) := by
  refine ⟨_, gradualPerformance_of_load rosu fs hload, ?_⟩
  intro i hfit
  rw [fedState_eq]
  exact counted_eq_perfect_iff (Nat.succ_pos i) hfit

/-- A library all of whose maps are mania. -/
def RosuPp.maniaOnly :
    RosuPp ByteArray UInt32 (List DifficultyAttributes) (List PerformanceAttributes) :=
  { RosuPp.sample with data := fun _ => { BeatmapData.standard with mode := .mania } }

/-- The first object of a mania map is fed as a 300. -/
theorem gradual_judgement_of_mania :
    ∃ pp, (Calculator.gradualPerformance RosuPp.maniaOnly noFiles
        { beatmap := some (contentSource songA), mode := none, difficultySettings := none
          score := none } (.new 1)).1 = .ok pp ∧
      fedState RosuPp.maniaOnly pp 0 = { n300 := 1, maxCombo := 1 } ∧
      (initialState none).perfect .mania 1 = { nGeki := 1, maxCombo := 1 } ∧
      fedState RosuPp.maniaOnly pp 0 ≠ (initialState none).perfect .mania 1 := by
  have hload : (Calculator.loadAndConvert RosuPp.maniaOnly noFiles (some (contentSource songA))
      (.ofField none) none (.new 1)).1 = .ok songA.toUTF8 := load_songA rfl rfl none
  refine ⟨_, gradualPerformance_of_load RosuPp.maniaOnly noFiles hload, ?_, ?_, ?_⟩
  · rw [fedState_eq]
    rfl
  · -- a perfect play of one object: one MAX, and no 300
    rfl
  · rw [fedState_eq]
    decide

theorem load_sample :
    (Calculator.loadAndConvert RosuPp.sample noFiles (some (contentSource songA)) (.ofField none)
      none (.new 1)).1 = .ok songA.toUTF8 :=
  load_songA rfl rfl none

/-- The theorem at an osu! map. -/
theorem gradual_judgement_of_osu :
    ∃ pp, (Calculator.gradualPerformance RosuPp.sample noFiles
        { beatmap := some (contentSource songA), mode := none, difficultySettings := none
          score := none } (.new 1)).1 = .ok pp ∧
      fedState RosuPp.sample pp 0 = (initialState none).perfect .osu 1 := by
  obtain ⟨pp, hpp, hagree⟩ := @gradual_judgements_agree_iff _ _ _ _ RosuPp.sample noFiles
    { beatmap := some (contentSource songA), mode := none, difficultySettings := none
      score := none } _ _ load_sample
  have hfit : (initialState none).Fits .osu 1 := ⟨by decide, by decide⟩
  exact ⟨pp, hpp, (hagree 0 hfit).mpr (by decide)⟩

/-! ## The range of the counters -/

/-- The calculation after `i` calls. -/
def GradualPerformanceCalc.after (pp : GradualPerformanceCalc GP) (i : Nat) :
    GradualPerformanceCalc GP :=
  (fun pp => (pp.next rosu).2)^[i] pp

/-- After `i` calls the score has `i` more 300s and `i` more combo. -/
theorem GradualPerformanceCalc.after_state (pp : GradualPerformanceCalc GP) (i : Nat) :
    (pp.after rosu i).state = pp.state.counted i := by
  cases i with
  | zero =>
    show pp.state = { pp.state with n300 := pp.state.n300 + 0, maxCombo := pp.state.maxCombo + 0 }
    rw [UInt32.add_zero, UInt32.add_zero]
  | succ i =>
    rw [after, Function.iterate_succ_apply']
    show ((pp.after rosu i).next rosu).2.state = _
    rw [next_state]
    exact fedState_eq rosu pp i

/-- Only answered calls move the index on. -/
theorem GradualPerformanceCalc.after_index_le (pp : GradualPerformanceCalc GP) (i : Nat) :
    (pp.after rosu i).index.toNat ≤ pp.index.toNat + i := by
  induction i with
  | zero => exact Nat.le_refl _
  | succ i ih =>
    rw [after, Function.iterate_succ_apply']
    show ((pp.after rosu i).next rosu).2.index.toNat ≤ _
    rcases hnext : rosu.nextPerformance (pp.after rosu i).inner (pp.after rosu i).nextState with
      ⟨_ | attrs, gp⟩
    · -- no answer: the index stays
      rw [next_of_none rosu hnext]
      show (pp.after rosu i).index.toNat ≤ _
      omega
    · -- an answer: one more, or a wrap to less
      rw [next_of_some rosu hnext]
      show ((pp.after rosu i).index + 1).toNat ≤ _
      have hle : ((pp.after rosu i).index + 1).toNat ≤ (pp.after rosu i).index.toNat + 1 := by
        rw [UInt32.toNat_add]
        exact Nat.mod_le _ _
      omega

/-- No addition of the next call overflows: neither those of the counters nor, if the library
    answers, that of the index. -/
def GradualPerformanceCalc.NextFits (pp : GradualPerformanceCalc GP) : Prop :=
  pp.state.n300.toNat + 1 < 2 ^ 32 ∧ pp.state.maxCombo.toNat + 1 < 2 ^ 32 ∧
    ((rosu.nextPerformance pp.inner pp.nextState).1.isSome → pp.index.toNat + 1 < 2 ^ 32)

/-- The first `k` calls count exactly: the state fed by each has as many 300s and as much combo as
    the client said and calls have been made, and no addition overflows on the way. -/
def CountersExact (pp : GradualPerformanceCalc GP) (n300 combo : UInt32) (k : Nat) : Prop :=
  (∀ i < k, (fedState rosu pp i).n300.toNat = n300.toNat + (i + 1) ∧
      (fedState rosu pp i).maxCombo.toNat = combo.toNat + (i + 1)) ∧
    ∀ i < k, (pp.after rosu i).NextFits rosu

theorem toNat_add_ofNat {n : UInt32} {k : Nat} (h : n.toNat + k < 2 ^ 32) :
    (n + UInt32.ofNat k).toNat = n.toNat + k := by
  rw [UInt32.toNat_add, UInt32.toNat_ofNat']
  omega

/-- The counters of `k` calls are exact while their last values are words. -/
theorem countersExact_iff (pp : GradualPerformanceCalc GP) (hindex : pp.index = 0) (k : Nat) :
    CountersExact rosu pp pp.state.n300 pp.state.maxCombo k ↔
      pp.state.n300.toNat + k < 2 ^ 32 ∧ pp.state.maxCombo.toNat + k < 2 ^ 32 := by
  constructor
  · rintro ⟨hexact, _⟩
    cases k with
    | zero => exact ⟨UInt32.toNat_lt _, UInt32.toNat_lt _⟩
    | succ k =>
      -- the last state fed holds the two sums, and a word is smaller than 2^32
      obtain ⟨h300, hcombo⟩ := hexact k (Nat.lt_succ_self k)
      have hlt300 := UInt32.toNat_lt (fedState rosu pp k).n300
      have hltcombo := UInt32.toNat_lt (fedState rosu pp k).maxCombo
      exact ⟨by omega, by omega⟩
  · rintro ⟨h300, hcombo⟩
    constructor
    · intro i hi
      rw [fedState_eq]
      exact ⟨toNat_add_ofNat (by omega), toNat_add_ofNat (by omega)⟩
    · -- nor does anything overflow on the way: the index has counted no more than the calls
      intro i hi
      have hle := pp.after_index_le rosu i
      have hzero : pp.index.toNat = 0 := by rw [hindex]; rfl
      unfold GradualPerformanceCalc.NextFits
      rw [pp.after_state rosu i]
      have hthis300 : (pp.state.counted i).n300.toNat = pp.state.n300.toNat + i :=
        toNat_add_ofNat (by omega)
      have hthiscombo : (pp.state.counted i).maxCombo.toNat = pp.state.maxCombo.toNat + i :=
        toNat_add_ofNat (by omega)
      refine ⟨by omega, by omega, ?_⟩
      intro _
      omega

/-- What the client says about one counter, zero if nothing. -/
def clientCount (score : Option ScoreParams) (field : ScoreParams → Option UInt32) : UInt32 :=
  (score.bind field).getD 0

/-- The score starts with the seven counts it has a field for in the request. -/
theorem initialState_eq (score : Option ScoreParams) :
    initialState score =
      { maxCombo := clientCount score (·.combo)
        n300 := clientCount score (·.n300)
        n100 := clientCount score (·.n100)
        n50 := clientCount score (·.n50)
        nGeki := clientCount score (·.nGeki)
        nKatu := clientCount score (·.nKatu)
        misses := clientCount score (·.misses) } := by
  cases score with
  | none => rfl
  | some s =>
    show applyScoreParamsToState {} s = _
    rw [applyScoreParamsToState_eq]
    rfl

/-- **The counters are exact** for the first `k` calls of a stream if and only if neither the
    300s nor the combo the client starts with reach 2^32 with `k` more. -/
theorem gradual_counters_exact_iff {req : GradualPerformanceRequest} {c : BeatmapCache Map}
    {map : Map}
    (hload : (Calculator.loadAndConvert rosu fs req.beatmap (.ofField req.mode)
      req.difficultySettings c).1 = .ok map) :
    ∃ pp, (Calculator.gradualPerformance rosu fs req c).1 = .ok pp ∧
      ∀ k, CountersExact rosu pp (clientCount req.score (·.n300))
          (clientCount req.score (·.combo)) k ↔
        (clientCount req.score (·.n300)).toNat + k < 2 ^ 32 ∧
          (clientCount req.score (·.combo)).toNat + k < 2 ^ 32 := by
  refine ⟨_, gradualPerformance_of_load rosu fs hload, ?_⟩
  intro k
  have hexact := countersExact_iff rosu
    ⟨rosu.gradualPerformance (Calculator.buildDifficulty rosu req.difficultySettings) map,
      initialState req.score, 0⟩ rfl k
  simp only [initialState_eq] at hexact ⊢
  exact hexact

/-- The largest combo a client can send wraps with the first object. -/
theorem gradual_counter_wraps :
    ∃ pp, (Calculator.gradualPerformance RosuPp.sample noFiles
        { beatmap := some (contentSource songA), mode := none, difficultySettings := none
          score := some { combo := some 4294967295 } } (.new 1)).1 = .ok pp ∧
      (fedState RosuPp.sample pp 0).maxCombo = 0 ∧
      ¬ CountersExact RosuPp.sample pp 0 4294967295 1 := by
  refine ⟨_, gradualPerformance_of_load RosuPp.sample noFiles load_sample, ?_, ?_⟩
  · rw [fedState_eq]
    decide
  · -- the combo would have to be 2^32
    rintro ⟨hexact, _⟩
    have hcombo := (hexact 0 Nat.zero_lt_one).2
    rw [fedState_eq] at hcombo
    exact absurd hcombo (by decide)

/-- The theorem at a client that starts from nothing: a hundred calls count exactly. -/
theorem gradual_counters_of_hundred :
    ∃ pp, (Calculator.gradualPerformance RosuPp.sample noFiles
        { beatmap := some (contentSource songA), mode := none, difficultySettings := none
          score := none } (.new 1)).1 = .ok pp ∧
      CountersExact RosuPp.sample pp 0 0 100 := by
  obtain ⟨pp, hpp, hexact⟩ := @gradual_counters_exact_iff _ _ _ _ RosuPp.sample noFiles
    { beatmap := some (contentSource songA), mode := none, difficultySettings := none
      score := none } _ _ load_sample
  exact ⟨pp, hpp, (hexact 100).mpr (by decide)⟩

/-! ## The start -/

/-- The counts a performance calculation is given, zero where none is: the state that a full
    calculation would start from. -/
def countsOf (p : Performance Mods) : ScoreState where
  maxCombo := p.combo.getD 0
  osuLargeTickHits := p.largeTickHits.getD 0
  osuSmallTickHits := p.smallTickHits.getD 0
  sliderEndHits := p.sliderEndHits.getD 0
  nGeki := p.nGeki.getD 0
  nKatu := p.nKatu.getD 0
  n300 := p.n300.getD 0
  n100 := p.n100.getD 0
  n50 := p.n50.getD 0
  misses := p.misses.getD 0

/-- `apply_score_params` forwards every count the client gives. -/
theorem countsOf_applyScoreParams (attributes : DifficultyAttributes) (s : ScoreParams) :
    countsOf (applyScoreParams (Performance.new rosu attributes) s) =
      { maxCombo := s.combo.getD 0
        osuLargeTickHits := s.largeTickHits.getD 0
        osuSmallTickHits := s.smallTickHits.getD 0
        sliderEndHits := s.sliderEndHits.getD 0
        nGeki := s.nGeki.getD 0
        nKatu := s.nKatu.getD 0
        n300 := s.n300.getD 0
        n100 := s.n100.getD 0
        n50 := s.n50.getD 0
        misses := s.misses.getD 0 } := by
  rw [applyScoreParams_eq]
  simp only [countsOf, Performance.new, Option.or_none]

/-- **A gradual performance starts with the counts of a full calculation** if and only if the
    client gives no tick hits and no slider end hits, or zeros. -/
theorem starting_state_agrees_iff (inner : GP) (attributes : DifficultyAttributes)
    (req : GradualPerformanceRequest) (s : ScoreParams) :
    (GradualPerformanceCalc.new inner { req with score := some s }).state
        = countsOf (applyScoreParams (Performance.new rosu attributes) s) ↔
      s.largeTickHits.getD 0 = 0 ∧ s.smallTickHits.getD 0 = 0 ∧ s.sliderEndHits.getD 0 = 0 := by
  have hstate : (GradualPerformanceCalc.new inner { req with score := some s }).state
      = initialState (some s) := rfl
  rw [hstate, initialState_eq, countsOf_applyScoreParams, ScoreState.mk.injEq]
  -- all other counts are read off the same fields
  constructor
  · -- the starting state leaves these three at zero
    rintro ⟨_, hlarge, hsmall, hends, _⟩
    exact ⟨hlarge.symm, hsmall.symm, hends.symm⟩
  · rintro ⟨hlarge, hsmall, hends⟩
    exact ⟨rfl, hlarge.symm, hsmall.symm, hends.symm, rfl, rfl, rfl, rfl, rfl, rfl⟩

/-- Ten slider ends that a full calculation is given and the gradual one is not. -/
theorem starting_state_drops_slider_ends :
    (GradualPerformanceCalc.new ()
        { beatmap := none, mode := none, difficultySettings := none
          score := some { sliderEndHits := some 10 } }).state.sliderEndHits = 0 ∧
      (countsOf (applyScoreParams (Performance.new RosuPp.sample (.ofCombo 0))
        { sliderEndHits := some 10 })).sliderEndHits = 10 ∧
      (GradualPerformanceCalc.new ()
          { beatmap := none, mode := none, difficultySettings := none
            score := some { sliderEndHits := some 10 } }).state
        ≠ countsOf (applyScoreParams (Performance.new RosuPp.sample (.ofCombo 0))
          { sliderEndHits := some 10 }) := by
  decide

end PpService
