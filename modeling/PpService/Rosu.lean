/-
  THE LIBRARIES the service is built on: `rosu_pp` with `rosu_mods`, and the crates that draw
  the strain graph.  Their code is not part of the repository, so they are parameters.

  What the service reads of a library value is a plain record here (`BeatmapData`, the
  attributes, `Strains`, `ScoreState`); the two builders it configures, `Difficulty` and
  `Performance`, are the record of the settings installed on them, a setting not installed
  being `none` (mods: the library's default).  What the libraries compute are the functions of
  `RosuPp` and `Plotting`, about which nothing is assumed.

  The interpolating iterator of the plotting crate is `Plotting.linear`, and the backend with its
  fonts and its PNG encoder is `Plotting.draw`.  Results that need more of a library than that
  it is a function state it as a hypothesis, under a name of its own, in the module that
  uses it.
-/
import PpService.Error
import PpService.Proto

namespace PpService

open Proto (Source)

/-- `rosu_pp::model::mode::GameMode`. -/
inductive GameMode where
  | osu | taiko | catch_ | mania
  deriving DecidableEq, Repr

/-- `rosu_pp::any::HitResultPriority`. -/
inductive HitResultPriority where
  | bestCase | worstCase
  deriving DecidableEq, Repr

inductive HitObjectKind where
  | circle | slider | spinner | hold
  deriving DecidableEq, Repr

/-- What the service reads of a `rosu_pp::Beatmap`. -/
structure BeatmapData where
  version : Int32
  mode : GameMode
  isConvert : Bool
  hp : F32
  cs : F32
  od : F32
  ar : F32
  sliderMultiplier : F64
  sliderTickRate : F64
  stackLeniency : F32
  bpm : F64
  hitObjects : List HitObjectKind

/-! ## Attributes, strains, score state -/

structure OsuDifficultyAttributes where
  aim : F64
  speed : F64
  flashlight : F64
  sliderFactor : F64
  speedNoteCount : F64
  aimDifficultStrainCount : F64
  speedDifficultStrainCount : F64
  aimDifficultSliderCount : F64
  ar : F64
  od : F64
  hp : F64
  greatHitWindow : F64
  okHitWindow : F64
  mehHitWindow : F64
  nCircles : UInt32
  nSliders : UInt32
  nSpinners : UInt32
  nLargeTicks : UInt32
  stars : F64
  maxCombo : UInt32

structure TaikoDifficultyAttributes where
  stamina : F64
  rhythm : F64
  color : F64
  reading : F64
  greatHitWindow : F64
  okHitWindow : F64
  monoStaminaFactor : F64
  isConvert : Bool
  stars : F64
  maxCombo : UInt32

structure CatchDifficultyAttributes where
  ar : F64
  nFruits : UInt32
  nDroplets : UInt32
  nTinyDroplets : UInt32
  isConvert : Bool
  stars : F64
  maxCombo : UInt32

structure ManiaDifficultyAttributes where
  nObjects : UInt32
  nHoldNotes : UInt32
  isConvert : Bool
  stars : F64
  maxCombo : UInt32

/-- `rosu_pp::any::DifficultyAttributes`. -/
inductive DifficultyAttributes where
  | osu (a : OsuDifficultyAttributes)
  | taiko (a : TaikoDifficultyAttributes)
  | catch_ (a : CatchDifficultyAttributes)
  | mania (a : ManiaDifficultyAttributes)

def DifficultyAttributes.stars : DifficultyAttributes → F64
  | .osu a => a.stars
  | .taiko a => a.stars
  | .catch_ a => a.stars
  | .mania a => a.stars

def DifficultyAttributes.maxCombo : DifficultyAttributes → UInt32
  | .osu a => a.maxCombo
  | .taiko a => a.maxCombo
  | .catch_ a => a.maxCombo
  | .mania a => a.maxCombo

structure OsuPerformanceAttributes where
  difficulty : OsuDifficultyAttributes
  pp : F64
  ppAim : F64
  ppSpeed : F64
  ppAcc : F64
  ppFlashlight : F64
  effectiveMissCount : F64
  speedDeviation : Option F64

structure TaikoPerformanceAttributes where
  difficulty : TaikoDifficultyAttributes
  pp : F64
  ppAcc : F64
  ppDifficulty : F64
  estimatedUnstableRate : Option F64

structure CatchPerformanceAttributes where
  difficulty : CatchDifficultyAttributes
  pp : F64

structure ManiaPerformanceAttributes where
  difficulty : ManiaDifficultyAttributes
  pp : F64
  ppDifficulty : F64

/-- `rosu_pp::any::PerformanceAttributes`. -/
inductive PerformanceAttributes where
  | osu (a : OsuPerformanceAttributes)
  | taiko (a : TaikoPerformanceAttributes)
  | catch_ (a : CatchPerformanceAttributes)
  | mania (a : ManiaPerformanceAttributes)

def PerformanceAttributes.pp : PerformanceAttributes → F64
  | .osu a => a.pp
  | .taiko a => a.pp
  | .catch_ a => a.pp
  | .mania a => a.pp

def PerformanceAttributes.stars : PerformanceAttributes → F64
  | .osu a => a.difficulty.stars
  | .taiko a => a.difficulty.stars
  | .catch_ a => a.difficulty.stars
  | .mania a => a.difficulty.stars

def PerformanceAttributes.maxCombo : PerformanceAttributes → UInt32
  | .osu a => a.difficulty.maxCombo
  | .taiko a => a.difficulty.maxCombo
  | .catch_ a => a.difficulty.maxCombo
  | .mania a => a.difficulty.maxCombo

/-- The series of a `rosu_pp::any::Strains`, by mode. -/
inductive StrainSeries where
  | osu (aim aimNoSliders speed flashlight : List F64)
  | taiko (color reading rhythm stamina singleColorStamina : List F64)
  | catch_ (movement : List F64)
  | mania (strains : List F64)
  deriving DecidableEq

/-- `rosu_pp::any::Strains`. -/
structure Strains where
  sectionLen : F64
  series : StrainSeries
  deriving DecidableEq

/-- `rosu_pp::any::ScoreState`; `ScoreState::new()` is all zero. -/
structure ScoreState where
  maxCombo : UInt32 := 0
  osuLargeTickHits : UInt32 := 0
  osuSmallTickHits : UInt32 := 0
  sliderEndHits : UInt32 := 0
  nGeki : UInt32 := 0
  nKatu : UInt32 := 0
  n300 : UInt32 := 0
  n100 : UInt32 := 0
  n50 : UInt32 := 0
  misses : UInt32 := 0
  deriving DecidableEq

/-! ## The builders -/

/-- The settings installed on a `rosu_pp::Difficulty`. -/
structure Difficulty (Mods : Type) where
  mods : Mods
  clockRate : Option F64 := none
  ar : Option (F32 × Bool) := none
  cs : Option (F32 × Bool) := none
  hp : Option (F32 × Bool) := none
  od : Option (F32 × Bool) := none
  passedObjects : Option UInt32 := none
  hardrockOffsets : Option Bool := none
  lazer : Option Bool := none

/-- The settings installed on a `rosu_pp::Performance`. -/
structure Performance (Mods : Type) where
  attributes : DifficultyAttributes
  mods : Mods
  clockRate : Option F64 := none
  lazer : Option Bool := none
  combo : Option UInt32 := none
  accuracy : Option F64 := none
  misses : Option UInt32 := none
  n300 : Option UInt32 := none
  n100 : Option UInt32 := none
  n50 : Option UInt32 := none
  nGeki : Option UInt32 := none
  nKatu : Option UInt32 := none
  largeTickHits : Option UInt32 := none
  smallTickHits : Option UInt32 := none
  sliderEndHits : Option UInt32 := none
  hitresultPriority : HitResultPriority := .bestCase

/-! ## The functions -/

/-- `rosu_pp` and `rosu_mods`: beatmaps in `Map`, mod sets in `Mods`, and the states of the two
    gradual calculations in `GD` and `GP`. -/
structure RosuPp (Map Mods GD GP : Type) where
  /-- `Beatmap::from_bytes`. -/
  fromBytes : ByteArray → Except IoError Map
  /-- `Beatmap::check_suspicion`. -/
  checkSuspicion : Map → Except TooSuspicious Unit
  data : Map → BeatmapData
  /-- `Beatmap::convert_mut`, answering the converted map. -/
  convertMut : Map → GameMode → Mods → Except Unit Map
  /-- `GameMods::default`. -/
  modsDefault : Mods
  /-- `GameMods::from(u32)`. -/
  modsOfBits : UInt32 → Mods
  /-- `str::parse::<GameModsIntermode>`, into `GameMods`. -/
  parseMods : String → Option Mods
  /-- `Difficulty::calculate`. -/
  calculate : Difficulty Mods → Map → DifficultyAttributes
  /-- `Difficulty::strains`. -/
  strains : Difficulty Mods → Map → Strains
  /-- `Difficulty::gradual_difficulty`. -/
  gradualDifficulty : Difficulty Mods → Map → GD
  /-- `GradualDifficulty::next`. -/
  nextDifficulty : GD → Option DifficultyAttributes × GD
  /-- `Difficulty::gradual_performance`. -/
  gradualPerformance : Difficulty Mods → Map → GP
  /-- `GradualPerformance::next`. -/
  nextPerformance : GP → ScoreState → Option PerformanceAttributes × GP
  /-- `Performance::calculate`. -/
  calculatePerformance : Performance Mods → PerformanceAttributes

/-- One labelled line of the strain graph: its points as (time, strain). -/
structure GraphSeries where
  label : String
  points : List (F64 × F64)

/-- The crates behind the strain graph. -/
structure Plotting where
  /-- `enterpolation`: the first `n` samples of the linear curve through `elements`, which lie
      `distance` apart; on failure the text of the error. -/
  linear : (elements : List F64) → (distance : F64) → (n : Nat) → Except String (List F64)
  /-- `plotters` and `skia`: the PNG of a chart over `x` and `0 .. y`, or the error text. -/
  draw : (w h : UInt32) → (background : Option ByteArray) → (x : F64 × F64) → (y : F64) →
    List GraphSeries → Except String ByteArray

section

variable {Map Mods GD GP : Type} (rosu : RosuPp Map Mods GD GP)

/-- `Difficulty::new`. -/
def Difficulty.new : Difficulty Mods := { mods := rosu.modsDefault }

/-- `Performance::new`. -/
def Performance.new (attributes : DifficultyAttributes) : Performance Mods :=
  { attributes, mods := rosu.modsDefault }

/-- The file system as `std::fs::read` sees it. -/
abbrev Files := String → Except IoError ByteArray

end

/-! ## A library to run the model on

  A beatmap is its own text, a mod set its bitflags, and a gradual calculation the list of what
  it will still answer. -/

/-- The beatmap data of a text without any setting. -/
def BeatmapData.standard : BeatmapData where
  version := 14
  mode := .osu
  isConvert := false
  hp := 5
  cs := 5
  od := 5
  ar := 5
  sliderMultiplier := 7 / 5
  sliderTickRate := 1
  stackLeniency := 7 / 10
  bpm := 60
  hitObjects := []

/-- Attributes of an osu! map of which only the combo matters. -/
def DifficultyAttributes.ofCombo (maxCombo : UInt32) : DifficultyAttributes :=
  .osu
    { aim := 0, speed := 0, flashlight := 0, sliderFactor := 0, speedNoteCount := 0
      aimDifficultStrainCount := 0, speedDifficultStrainCount := 0
      aimDifficultSliderCount := 0, ar := 5, od := 5, hp := 5, greatHitWindow := 0
      okHitWindow := 0, mehHitWindow := 0, nCircles := 0, nSliders := 0, nSpinners := 0
      nLargeTicks := 0, stars := 0, maxCombo }

/-- The head of a list and what is left of it. -/
def popHead {α : Type} : List α → Option α × List α
  | [] => (none, [])
  | a :: rest => (some a, rest)

def RosuPp.sample :
    RosuPp ByteArray UInt32 (List DifficultyAttributes) (List PerformanceAttributes) where
  fromBytes := fun bytes => .ok bytes
  checkSuspicion := fun _ => .ok ()
  data := fun _ => .standard
  convertMut := fun map _ _ => .ok map
  modsDefault := 0
  modsOfBits := id
  parseMods := fun s => if s = "HD" then some 8 else if s = "4K" then some 32768 else none
  calculate := fun _ _ => .ofCombo 0
  strains := fun _ _ => { sectionLen := 400, series := .osu [] [] [] [] }
  gradualDifficulty := fun _ _ => []
  nextDifficulty := popHead
  gradualPerformance := fun _ _ => []
  nextPerformance := fun l _ => popHead l
  calculatePerformance := fun p =>
    match p.attributes with
    | .osu a =>
      .osu { difficulty := a, pp := 0, ppAim := 0, ppSpeed := 0, ppAcc := 0, ppFlashlight := 0
             effectiveMissCount := 0, speedDeviation := none }
    | .taiko a =>
      .taiko { difficulty := a, pp := 0, ppAcc := 0, ppDifficulty := 0
               estimatedUnstableRate := none }
    | .catch_ a => .catch_ { difficulty := a, pp := 0 }
    | .mania a => .mania { difficulty := a, pp := 0, ppDifficulty := 0 }

/-- Crates that draw nothing. -/
def Plotting.blank : Plotting where
  linear := fun _ _ _ => .error "no curve"
  draw := fun _ _ _ _ _ _ => .error "no backend"

end PpService
