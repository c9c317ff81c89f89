/-
  THE MESSAGES of `proto/pp.proto`, as the generated code holds them: an `optional` field is an
  `Option`, a `oneof` an optional inductive value, an enumeration field its `i32` wire number.

  Numbers of type `float` and `double` are exact rationals: the service passes them on, and
  the two places that compute with them (`effectiveCs`, the strain graph) are read over exact
  arithmetic.

  A number on the wire that is no number of its enumeration is read as the first one, as the
  generated getters do (`ofField`); a field that is absent is read so too.
-/
import Mathlib.Algebra.Order.Ring.Unbundled.Rat

namespace PpService

/-- `float`. -/
abbrev F32 := Rat

/-- `double`. -/
abbrev F64 := Rat

namespace Proto

inductive GameMode where
  | unspecified | osu | taiko | catch_ | mania
  deriving DecidableEq, Repr

/-- `GameMode as i32`. -/
def GameMode.toI32 : GameMode → Int32
  | .unspecified => 0
  | .osu => 1
  | .taiko => 2
  | .catch_ => 3
  | .mania => 4

/-- `GameMode::try_from`; the generated code has one arm for each number it knows. -/
def GameMode.tryFrom (v : Int32) : Option GameMode :=
  if v = 0 then some .unspecified
  else if v = 1 then some .osu
  else if v = 2 then some .taiko
  else if v = 3 then some .catch_
  else if v = 4 then some .mania
  else none

/-- The generated accessor of an `optional GameMode`: an absent or unknown number reads as the
    default. -/
def GameMode.ofField (field : Option Int32) : GameMode :=
  (field.bind GameMode.tryFrom).getD .unspecified

inductive HitResultPriority where
  | bestCase | worstCase | fastest
  deriving DecidableEq, Repr

/-- `HitResultPriority as i32`. -/
def HitResultPriority.toI32 : HitResultPriority → Int32
  | .bestCase => 0
  | .worstCase => 1
  | .fastest => 2

/-- `HitResultPriority::try_from`. -/
def HitResultPriority.tryFrom (v : Int32) : Option HitResultPriority :=
  if v = 0 then some .bestCase
  else if v = 1 then some .worstCase
  else if v = 2 then some .fastest
  else none

/-- The generated accessor of an `optional HitResultPriority`. -/
def HitResultPriority.ofField (field : Option Int32) : HitResultPriority :=
  (field.bind HitResultPriority.tryFrom).getD .bestCase

/-! ## Requests -/

/-- The `oneof` of a `BeatmapSource`. -/
inductive Source where
  | content (bytes : ByteArray)
  | path (path : String)

/-- The message around the `oneof`: a source may be missing inside it as well. -/
structure BeatmapSource where
  source : Option Source

/-- Mods, clock rate and attribute overrides, all of them optional; the four attributes come with a
    flag each. `mods` are bit flags, `mods_str` is a text of acronyms. -/
structure DifficultySettings where
  mods : Option UInt32 := none
  clockRate : Option F64 := none
  ar : Option F32 := none
  arWithMods : Option Bool := none
  cs : Option F32 := none
  csWithMods : Option Bool := none
  hp : Option F32 := none
  hpWithMods : Option Bool := none
  od : Option F32 := none
  odWithMods : Option Bool := none
  passedObjects : Option UInt32 := none
  hardrockOffsets : Option Bool := none
  lazer : Option Bool := none
  modsStr : Option String := none
  deriving DecidableEq

/-- What is known of a score, all of it optional. -/
structure ScoreParams where
  combo : Option UInt32 := none
  accuracy : Option F64 := none
  misses : Option UInt32 := none
  n300 : Option UInt32 := none
  n100 : Option UInt32 := none
  n50 : Option UInt32 := none
  nGeki : Option UInt32 := none
  nKatu : Option UInt32 := none
  largeTickHits : Option UInt32 := none
  smallTickHits : Option UInt32 := none
  sliderEndHits : Option UInt32 := none
  hitresultPriority : Option Int32 := none
  deriving DecidableEq

structure DifficultyRequest where
  beatmap : Option BeatmapSource
  mode : Option Int32
  settings : Option DifficultySettings

/-- The settings are called `difficulty_settings` where a score stands beside them. -/
structure PerformanceRequest where
  beatmap : Option BeatmapSource
  mode : Option Int32
  difficultySettings : Option DifficultySettings
  score : Option ScoreParams

/-- The one message that is bounded, by the service and not by its type. -/
structure BatchRequest where
  requests : List PerformanceRequest

structure StrainsRequest where
  beatmap : Option BeatmapSource
  mode : Option Int32
  settings : Option DifficultySettings

/-- A width or a height of 0 asks for the default one. -/
structure StrainGraphRequest where
  beatmap : Option BeatmapSource
  mode : Option Int32
  settings : Option DifficultySettings
  width : UInt32
  height : UInt32
  background : Option ByteArray

/-- The one request without a mode and without settings. -/
structure BeatmapInfoRequest where
  beatmap : Option BeatmapSource

structure GradualDifficultyRequest where
  beatmap : Option BeatmapSource
  mode : Option Int32
  settings : Option DifficultySettings

structure GradualPerformanceRequest where
  beatmap : Option BeatmapSource
  mode : Option Int32
  difficultySettings : Option DifficultySettings
  score : Option ScoreParams

/-! ## Responses -/

/-- `cs` is field 19, added behind the library's own attributes. -/
structure OsuDifficultyAttributes where
  aim : F64
  speed : F64
  flashlight : F64
  sliderFactor : F64
  speedNoteCount : F64
  aimDifficultStrainCount : F64
  speedDifficultStrainCount : F64
  aimDifficultSliderCount : F64
  ar : F64
  od : F64
  hp : F64
  greatHitWindow : F64
  okHitWindow : F64
  mehHitWindow : F64
  nCircles : UInt32
  nSliders : UInt32
  nSpinners : UInt32
  nLargeTicks : UInt32
  cs : F64
  deriving DecidableEq

structure TaikoDifficultyAttributes where
  stamina : F64
  rhythm : F64
  color : F64
  reading : F64
  greatHitWindow : F64
  okHitWindow : F64
  monoStaminaFactor : F64
  isConvert : Bool
  deriving DecidableEq

/-- A field left out of the literal has the default of its type (`..Default::default()`). -/
structure CatchDifficultyAttributes where
  ar : F64 := 0
  nFruits : UInt32 := 0
  nDroplets : UInt32 := 0
  nTinyDroplets : UInt32 := 0
  isConvert : Bool := false
  deriving DecidableEq

structure ManiaDifficultyAttributes where
  nObjects : UInt32
  nHoldNotes : UInt32
  isConvert : Bool
  deriving DecidableEq

/-- The `oneof attributes` of the difficulty responses. -/
inductive DifficultyAttributes where
  | osu (a : OsuDifficultyAttributes)
  | taiko (a : TaikoDifficultyAttributes)
  | catch_ (a : CatchDifficultyAttributes)
  | mania (a : ManiaDifficultyAttributes)
  deriving DecidableEq

/-- Stars and combo are those of every mode, the rest is in the `oneof`. -/
structure DifficultyResponse where
  mode : Int32
  stars : F64
  maxCombo : UInt32
  attributes : Option DifficultyAttributes
  deriving DecidableEq

structure OsuPerformanceAttributes where
  difficulty : Option OsuDifficultyAttributes
  ppAim : F64
  ppSpeed : F64
  ppAcc : F64
  ppFlashlight : F64
  effectiveMissCount : F64
  speedDeviation : Option F64
  deriving DecidableEq

/-- A field left out of the literal has the default of its type (`..Default::default()`). -/
structure TaikoPerformanceAttributes where
  difficulty : Option TaikoDifficultyAttributes := none
  ppAcc : F64 := 0
  ppDifficulty : F64 := 0
  effectiveMissCount : F64 := 0
  estimatedUnstableRate : Option F64 := none
  deriving DecidableEq

structure CatchPerformanceAttributes where
  difficulty : Option CatchDifficultyAttributes
  deriving DecidableEq

structure ManiaPerformanceAttributes where
  difficulty : Option ManiaDifficultyAttributes
  ppDifficulty : F64
  deriving DecidableEq

/-- The `oneof attributes` of a `PerformanceResponse`. -/
inductive PerformanceAttributes where
  | osu (a : OsuPerformanceAttributes)
  | taiko (a : TaikoPerformanceAttributes)
  | catch_ (a : CatchPerformanceAttributes)
  | mania (a : ManiaPerformanceAttributes)
  deriving DecidableEq

/-- The difficulty behind the pp is inside the `oneof`, under each mode's attributes. -/
structure PerformanceResponse where
  mode : Int32
  pp : F64
  stars : F64
  maxCombo : UInt32
  attributes : Option PerformanceAttributes
  deriving DecidableEq

/-- The answers in the order of the requests. -/
structure BatchResponse where
  responses : List PerformanceResponse
  deriving DecidableEq

/-- One value for each section of `section_length` milliseconds, as for the other modes. -/
structure OsuStrains where
  aim : List F64
  aimNoSliders : List F64
  speed : List F64
  flashlight : List F64
  deriving DecidableEq

structure TaikoStrains where
  color : List F64
  reading : List F64
  rhythm : List F64
  stamina : List F64
  singleColorStamina : List F64
  deriving DecidableEq

structure CatchStrains where
  movement : List F64
  deriving DecidableEq

structure ManiaStrains where
  strains : List F64
  deriving DecidableEq

/-- The `oneof strains` of a `StrainsResponse`. -/
inductive Strains where
  | osu (s : OsuStrains)
  | taiko (s : TaikoStrains)
  | catch_ (s : CatchStrains)
  | mania (s : ManiaStrains)
  deriving DecidableEq

structure StrainsResponse where
  mode : Int32
  sectionLength : F64
  strains : Option Strains
  deriving DecidableEq

structure StrainGraphResponse where
  pngData : ByteArray

structure BeatmapInfoResponse where
  version : UInt32
  mode : Int32
  isConvert : Bool
  hp : F64
  cs : F64
  od : F64
  ar : F64
  sliderMultiplier : F64
  sliderTickRate : F64
  stackLeniency : F64
  bpm : F64
  nCircles : UInt32
  nSliders : UInt32
  nSpinners : UInt32
  nHolds : UInt32
  nObjects : UInt32
  deriving DecidableEq

/-- One item of the difficulty stream. -/
structure GradualDifficultyResponse where
  objectIndex : UInt32
  stars : F64
  maxCombo : UInt32
  attributes : Option DifficultyAttributes
  deriving DecidableEq

/-- One item of the performance stream; it has no attributes. -/
structure GradualPerformanceResponse where
  objectIndex : UInt32
  pp : F64
  stars : F64
  deriving DecidableEq

end Proto

end PpService
