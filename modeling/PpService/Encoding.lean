/-
  ENCODING ATTRIBUTES: what can be read back from the three responses that carry the library's
  attributes (`difficulty_to_proto`, `performance_to_proto`,
  `difficulty_attrs_to_gradual_proto`).

  The decoders below put every field of a message back where the library has it.  Osu!, taiko
  and mania attributes come back as they were, with the circle size of an osu! response.  Of
  catch attributes the approach rate does not: `catch_diff` leaves `ar` at its default, so what
  comes back is the attributes with an approach rate of zero, and no other decoder does better.

  The three responses share their difficulty part (`decodeDiff_diffAttributes`), so what is lost
  in one is lost in all, and the condition is the mode's alone
  (`encoding_loses_nothing_iff`).
-/
import PpService.Convert

namespace PpService

/-! ## Decoders -/

/-- The difficulty attributes of a message, with the stars and the combo of the response. -/
def decodeDiff (stars : F64) (maxCombo : UInt32) : Proto.DifficultyAttributes →
    DifficultyAttributes
  | .osu m =>
    .osu
      { aim := m.aim, speed := m.speed, flashlight := m.flashlight, sliderFactor := m.sliderFactor
        speedNoteCount := m.speedNoteCount, aimDifficultStrainCount := m.aimDifficultStrainCount
        speedDifficultStrainCount := m.speedDifficultStrainCount
        aimDifficultSliderCount := m.aimDifficultSliderCount, ar := m.ar, od := m.od, hp := m.hp
        greatHitWindow := m.greatHitWindow, okHitWindow := m.okHitWindow
        mehHitWindow := m.mehHitWindow, nCircles := m.nCircles, nSliders := m.nSliders
        nSpinners := m.nSpinners, nLargeTicks := m.nLargeTicks, stars, maxCombo }
  | .taiko m =>
    .taiko
      { stamina := m.stamina, rhythm := m.rhythm, color := m.color, reading := m.reading
        greatHitWindow := m.greatHitWindow, okHitWindow := m.okHitWindow
        monoStaminaFactor := m.monoStaminaFactor, isConvert := m.isConvert, stars, maxCombo }
  | .catch_ m =>
    .catch_
      { ar := m.ar, nFruits := m.nFruits, nDroplets := m.nDroplets
        nTinyDroplets := m.nTinyDroplets, isConvert := m.isConvert, stars, maxCombo }
  | .mania m =>
    .mania
      { nObjects := m.nObjects, nHoldNotes := m.nHoldNotes, isConvert := m.isConvert, stars
        maxCombo }

/-- The circle size a message has, in osu! only. -/
def decodeCs : Proto.DifficultyAttributes → Option F64
  | .osu m => some m.cs
  | .taiko _ | .catch_ _ | .mania _ => none

/-- What is read back from a difficulty response: the attributes, and the circle size where the
    mode has one in its message. -/
def decodeDifficulty (r : Proto.DifficultyResponse) :
    Option (DifficultyAttributes × Option F64) :=
  r.attributes.map fun m => (decodeDiff r.stars r.maxCombo m, decodeCs m)

/-- What is read back from a message of the difficulty stream, with its number. -/
def decodeGradual (r : Proto.GradualDifficultyResponse) :
    Option ((UInt32 × DifficultyAttributes) × Option F64) :=
  r.attributes.map fun m => ((r.objectIndex, decodeDiff r.stars r.maxCombo m), decodeCs m)

/-- The difficulty attributes in a performance message. -/
def difficultyOfPerf : Proto.PerformanceAttributes → Option Proto.DifficultyAttributes
  | .osu m => m.difficulty.map .osu
  | .taiko m => m.difficulty.map .taiko
  | .catch_ m => m.difficulty.map .catch_
  | .mania m => m.difficulty.map .mania

/-- The performance attributes of a message over its difficulty attributes. -/
def decodePerf (pp : F64) : Proto.PerformanceAttributes → DifficultyAttributes →
    Option PerformanceAttributes
  | .osu m, .osu difficulty =>
    some (.osu
      { difficulty, pp, ppAim := m.ppAim, ppSpeed := m.ppSpeed, ppAcc := m.ppAcc
        ppFlashlight := m.ppFlashlight, effectiveMissCount := m.effectiveMissCount
        speedDeviation := m.speedDeviation })
  | .taiko m, .taiko difficulty =>
    some (.taiko
      { difficulty, pp, ppAcc := m.ppAcc, ppDifficulty := m.ppDifficulty
        estimatedUnstableRate := m.estimatedUnstableRate })
  | .catch_ _, .catch_ difficulty => some (.catch_ { difficulty, pp })
  | .mania m, .mania difficulty =>
    some (.mania { difficulty, pp, ppDifficulty := m.ppDifficulty })
  -- attributes of two modes do not go together
  | _, _ => none

/-- What is read back from a performance response, whose difficulty is inside. -/
def decodePerformance (r : Proto.PerformanceResponse) :
    Option (PerformanceAttributes × Option F64) := do
  let m ← r.attributes
  let difficulty ← difficultyOfPerf m
  let perf ← decodePerf r.pp m (decodeDiff r.stars r.maxCombo difficulty)
  return (perf, decodeCs difficulty)

/-! ## Round trips -/

/-- The attributes without the approach rate of catch. -/
def DifficultyAttributes.withoutAr : DifficultyAttributes → DifficultyAttributes
  | .catch_ a => .catch_ { a with ar := 0 }
  | attrs => attrs

/-- The same of performance attributes. -/
def PerformanceAttributes.withoutAr : PerformanceAttributes → PerformanceAttributes
  | .catch_ a => .catch_ { a with difficulty := { a.difficulty with ar := 0 } }
  | attrs => attrs

/-- The circle size as far as the mode has one. -/
def csOf (mode : Proto.GameMode) (cs : F64) : Option F64 :=
  if mode = .osu then some cs else none

/-- All fields come back but one. -/
theorem decodeDiff_diffAttributes (attrs : DifficultyAttributes) (cs : F64) :
    decodeDiff attrs.stars attrs.maxCombo (diffAttributes attrs cs) = attrs.withoutAr := by
  cases attrs with
  | osu a => rfl
  | taiko a => rfl
  | catch_ a => rfl
  | mania a => rfl

/-- The circle size comes back where there is one. -/
theorem decodeCs_diffAttributes (attrs : DifficultyAttributes) (cs : F64) :
    decodeCs (diffAttributes attrs cs) = csOf attrs.mode cs := by
  cases attrs with
  | osu a => rfl
  | taiko a => rfl
  | catch_ a => rfl
  | mania a => rfl

/-- A difficulty response is read back so. -/
theorem decode_difficultyToProto (attrs : DifficultyAttributes) (cs : F64) :
    decodeDifficulty (difficultyToProto attrs cs)
      = some (attrs.withoutAr, csOf attrs.mode cs) := by
  have hattrs := decodeDiff_diffAttributes attrs cs
  have hcs := decodeCs_diffAttributes attrs cs
  show some (decodeDiff attrs.stars attrs.maxCombo (diffAttributes attrs cs),
    decodeCs (diffAttributes attrs cs)) = _
  rw [hattrs, hcs]

theorem decode_difficultyAttrsToGradualProto (index : UInt32) (attrs : DifficultyAttributes)
    (cs : F64) :
    decodeGradual (difficultyAttrsToGradualProto index attrs cs)
      = some ((index, attrs.withoutAr), csOf attrs.mode cs) := by
  have hattrs := decodeDiff_diffAttributes attrs cs
  have hcs := decodeCs_diffAttributes attrs cs
  show some ((index, decodeDiff attrs.stars attrs.maxCombo (diffAttributes attrs cs)),
    decodeCs (diffAttributes attrs cs)) = _
  rw [hattrs, hcs]

theorem decode_performanceToProto (attrs : PerformanceAttributes) (cs : F64) :
    decodePerformance (performanceToProto attrs cs)
      = some (attrs.withoutAr, csOf attrs.mode cs) := by
  cases attrs with
  | osu a => rfl
  | taiko a => rfl
  | catch_ a => rfl
  | mania a => rfl

/-! ## What an encoding keeps -/

/-- A response loses nothing of the attributes of a mode: some decoder reads them back, and the
    circle size in osu!. -/
def LosesNothing {α β : Type} (modeOf : α → Proto.GameMode) (encode : α → F64 → β)
    (mode : GameMode) : Prop :=
  ∃ decode : β → Option (α × Option F64), ∀ a cs, modeOf a = modeToProto mode →
    decode (encode a cs) = some (a, csOf (modeOf a) cs)

/-- Outside catch that is everything. -/
theorem DifficultyAttributes.withoutAr_of_ne {attrs : DifficultyAttributes}
    (h : attrs.mode ≠ .catch_) : attrs.withoutAr = attrs := by
  cases attrs with
  | osu a => rfl
  | taiko a => rfl
  | catch_ a => exact absurd rfl h
  | mania a => rfl

theorem PerformanceAttributes.withoutAr_of_ne {attrs : PerformanceAttributes}
    (h : attrs.mode ≠ .catch_) : attrs.withoutAr = attrs := by
  cases attrs with
  | osu a => rfl
  | taiko a => rfl
  | catch_ a => exact absurd rfl h
  | mania a => rfl

/-- The two enumerations name catch alike. -/
theorem modeToProto_eq_catch_iff {mode : GameMode} :
    modeToProto mode = .catch_ ↔ mode = .catch_ := by
  cases mode <;> decide

/-- An encoding that is read back up to `kept`, where `kept` matters in catch only and two catch
    values are encoded alike, loses nothing in exactly the other modes. -/
theorem losesNothing_iff {α β : Type} {modeOf : α → Proto.GameMode} {encode : α → F64 → β}
    {decode : β → Option (α × Option F64)} {kept : α → α}
    (hround : ∀ a cs, decode (encode a cs) = some (kept a, csOf (modeOf a) cs))
    (hkept : ∀ a, modeOf a ≠ .catch_ → kept a = a) {a b : α} (hne : a ≠ b)
    (ha : modeOf a = .catch_) (hb : modeOf b = .catch_) (hsame : ∀ cs, encode a cs = encode b cs)
    (mode : GameMode) : LosesNothing modeOf encode mode ↔ mode ≠ .catch_ := by
  constructor
  · rintro ⟨decode', hdecode'⟩ rfl
    have hread := hdecode' a 0 ha
    rw [hsame, hdecode' b 0 hb] at hread
    exact hne (Prod.mk.inj (Option.some.inj hread)).1.symm
  · -- outside catch the decoder there is reads everything back
    intro hmode
    refine ⟨decode, ?_⟩
    intro a cs hmodeOf
    have hcatch : modeOf a ≠ .catch_ := by
      rw [hmodeOf]
      exact fun heq => hmode (modeToProto_eq_catch_iff.mp heq)
    rw [hround, hkept a hcatch]

/-- Catch attributes of which only the approach rate matters. -/
def CatchDifficultyAttributes.ofAr (ar : F64) : CatchDifficultyAttributes where
  ar := ar
  nFruits := 0
  nDroplets := 0
  nTinyDroplets := 0
  isConvert := false
  stars := 0
  maxCombo := 0

theorem ofAr_ne : CatchDifficultyAttributes.ofAr 8 ≠ CatchDifficultyAttributes.ofAr 9 := by
  intro heq
  exact absurd (congrArg CatchDifficultyAttributes.ar heq) (by decide)

/-- **Encoding loses nothing** of the attributes of a mode, in any of the three responses, if
    and only if the mode is not catch. -/
theorem encoding_loses_nothing_iff (mode : GameMode) :
    (LosesNothing DifficultyAttributes.mode difficultyToProto mode ↔ mode ≠ .catch_) ∧
    (LosesNothing PerformanceAttributes.mode performanceToProto mode ↔ mode ≠ .catch_) ∧
    (LosesNothing (fun p : UInt32 × DifficultyAttributes => p.2.mode)
      (fun p cs => difficultyAttrsToGradualProto p.1 p.2 cs) mode ↔ mode ≠ .catch_) := by
  have hdiff : DifficultyAttributes.catch_ (.ofAr 8) ≠ .catch_ (.ofAr 9) := by
    intro heq
    exact ofAr_ne (DifficultyAttributes.catch_.inj heq)
  have hperf : PerformanceAttributes.catch_ ⟨.ofAr 8, 0⟩ ≠ .catch_ ⟨.ofAr 9, 0⟩ := by
    intro heq
    exact ofAr_ne (congrArg CatchPerformanceAttributes.difficulty
      (PerformanceAttributes.catch_.inj heq))
  have hgradual :
      ((0 : UInt32), DifficultyAttributes.catch_ (.ofAr 8)) ≠ (0, .catch_ (.ofAr 9)) := by
    intro heq
    exact hdiff (Prod.mk.inj heq).2
  refine ⟨?_, ?_, ?_⟩
  · exact losesNothing_iff decode_difficultyToProto
      (fun _ => DifficultyAttributes.withoutAr_of_ne) hdiff rfl rfl (fun _ => rfl) mode
  · exact losesNothing_iff decode_performanceToProto
      (fun _ => PerformanceAttributes.withoutAr_of_ne) hperf rfl rfl (fun _ => rfl) mode
  · refine losesNothing_iff (fun p cs => decode_difficultyAttrsToGradualProto p.1 p.2 cs) ?_
      hgradual rfl rfl (fun _ => rfl) mode
    rintro ⟨index, attrs⟩ hmode
    rw [DifficultyAttributes.withoutAr_of_ne hmode]

/-- Approach rates of 8 and 9, and one message for both, in each of the three responses. -/
theorem catch_approach_rates_encode_alike :
    CatchDifficultyAttributes.ofAr 8 ≠ CatchDifficultyAttributes.ofAr 9 ∧
      difficultyToProto (.catch_ (.ofAr 8)) 4 = difficultyToProto (.catch_ (.ofAr 9)) 4 ∧
      performanceToProto (.catch_ ⟨.ofAr 8, 0⟩) 4 = performanceToProto (.catch_ ⟨.ofAr 9, 0⟩) 4 ∧
      difficultyAttrsToGradualProto 0 (.catch_ (.ofAr 8)) 4
        = difficultyAttrsToGradualProto 0 (.catch_ (.ofAr 9)) 4 :=
  ⟨ofAr_ne, rfl, rfl, rfl⟩

end PpService
