/-
  THE REPORTED CIRCLE SIZE: `effective_cs` beside the mods of the calculation.

  Difficulty, performance and gradual difficulty report a circle size that the service works
  out itself, from the base value or the custom one and from the mods: HR takes it up, EZ takes
  it down.  `CsChange` is which of the three a set of mods does.

  `effective_cs` reads the mods off the flags, the calculation has them from the acronyms where
  these parse.  So the value reported is that of other mods wherever the two sets change the
  circle size differently, except at the few sizes where two changes meet
  (`CsChange.apply_eq_iff`).

  The three changes meet at few sizes: all at zero, HR and no mod at 10, where HR is cut off, and
  HR and EZ at 20.  So the exact condition is about the circle size as well as about the mods
  (`AcronymsKeepCs`), and the theorem is stated over exact arithmetic.
-/
import Mathlib.Tactic.Linarith
import Mathlib.Tactic.Ring
import PpService.Settings

namespace PpService

open Proto (DifficultySettings)

variable {Map Mods GD GP : Type} (rosu : RosuPp Map Mods GD GP)

/-! ## What mods do to a circle size -/

/-- What a set of mods does to a circle size: HR takes it up and EZ takes it down, and a set with
    both does what HR does. -/
inductive CsChange where
  | hardRock | easy | unchanged
  deriving DecidableEq

/-- HR goes before EZ. -/
def CsChange.of (hr ez : Bool) : CsChange :=
  if hr then .hardRock else if ez then .easy else .unchanged

/-- HR: `CS * 1.3`, 10 at most.  EZ: half of it. -/
def CsChange.apply : CsChange → F64 → F64
  | .hardRock, cs => min (cs * (13 / 10)) 10
  | .easy, cs => cs / 2
  | .unchanged, cs => cs

/-- Where HR and a smaller factor `k` meet: at zero, and where HR is cut off at 10. -/
theorem min_eq_mul_iff {k : F64} (hk : 0 < k) (hk' : k < 13 / 10) (cs : F64) :
    min (cs * (13 / 10)) 10 = cs * k ↔ cs = 0 ∨ cs * k = 10 := by
  rcases le_total (cs * (13 / 10)) 10 with h | h
  · rw [min_eq_left h]
    constructor
    · intro heq
      left
      have hfactor : cs * (13 / 10 - k) = 0 := by linarith
      rcases mul_eq_zero.mp hfactor with hcs | hzero
      · exact hcs
      · linarith
    · rintro (rfl | hcut)
      · rw [zero_mul, zero_mul]
      · -- below the cut `cs` is smaller than 8, so `cs * k` is smaller than 10
        have hpos : 0 < cs := by
          by_contra hneg
          have hle : cs * k ≤ 0 := mul_nonpos_of_nonpos_of_nonneg (not_lt.mp hneg) hk.le
          linarith
        have hlt : cs * k < cs * (13 / 10) := mul_lt_mul_of_pos_left hk' hpos
        linarith
  · rw [min_eq_right h]
    constructor
    · intro heq
      right
      exact heq.symm
    · rintro (rfl | hcut)
      · -- zero is below the cut
        norm_num at h
      · exact hcut.symm

/-- Two changes give the same circle size: they are one change, or the size is one of the few
    where they meet. -/
def SameCs (a b : CsChange) (cs : F64) : Prop :=
  a = b ∨ cs = 0 ∨
    (cs = 10 ∧ ((a = .hardRock ∧ b = .unchanged) ∨ (a = .unchanged ∧ b = .hardRock))) ∨
    (cs = 20 ∧ ((a = .hardRock ∧ b = .easy) ∨ (a = .easy ∧ b = .hardRock)))

/-- HR meets no mod at all where it is cut off at once. -/
theorem hardRock_eq_unchanged_iff (cs : F64) :
    CsChange.hardRock.apply cs = CsChange.unchanged.apply cs ↔ cs = 0 ∨ cs = 10 := by
  have hmeet := min_eq_mul_iff (k := 1) (by norm_num) (by norm_num) cs
  rw [mul_one] at hmeet
  exact hmeet

/-- HR meets EZ at twice that. -/
theorem hardRock_eq_easy_iff (cs : F64) :
    CsChange.hardRock.apply cs = CsChange.easy.apply cs ↔ cs = 0 ∨ cs = 20 := by
  have hmeet := min_eq_mul_iff (k := 1 / 2) (by norm_num) (by norm_num) cs
  have hhalf : cs / 2 = cs * (1 / 2) := by ring
  have hcut : cs * (1 / 2) = 10 ↔ cs = 20 := by
    constructor
    · intro h
      linarith
    · rintro rfl
      norm_num
  rw [hcut] at hmeet
  show min (cs * (13 / 10)) 10 = cs / 2 ↔ _
  rw [hhalf]
  exact hmeet

/-- EZ meets no mod at zero only. -/
theorem easy_eq_unchanged_iff (cs : F64) :
    CsChange.easy.apply cs = CsChange.unchanged.apply cs ↔ cs = 0 := by
  show cs / 2 = cs ↔ cs = 0
  constructor
  · intro h
    linarith
  · rintro rfl
    norm_num

/-- **Where changes meet**: nowhere else. -/
theorem CsChange.apply_eq_iff (a b : CsChange) (cs : F64) :
    a.apply cs = b.apply cs ↔ SameCs a b cs := by
  unfold SameCs
  cases a with
  | hardRock =>
    cases b with
    | hardRock => simp
    -- three changes, of which each pair is one of those above
    | easy => simp [hardRock_eq_easy_iff]
    | unchanged => simp [hardRock_eq_unchanged_iff]
  | easy =>
    cases b with
    | hardRock =>
      rw [eq_comm]
      simp [hardRock_eq_easy_iff]
    | easy => simp
    | unchanged => simp [easy_eq_unchanged_iff]
  | unchanged =>
    cases b with
    | hardRock =>
      rw [eq_comm]
      simp [hardRock_eq_unchanged_iff]
    | easy =>
      rw [eq_comm]
      simp [easy_eq_unchanged_iff]
    | unchanged => simp

/-! ## The circle size under mods -/

/-- The custom circle size of a request, and whether it is one with mods. -/
def customCs (settings : Option DifficultySettings) : Option (F64 × Bool) :=
  settings.bind fun s => s.cs.map fun cs => (cs, s.csWithMods.getD false)

/-- The circle size the mods start from. -/
def startCs (baseCs : F32) (settings : Option DifficultySettings) : F64 :=
  ((customCs settings).map (·.1)).getD baseCs

/-- A custom circle size with mods stands as it is. -/
def CsWithMods (settings : Option DifficultySettings) : Prop :=
  ∃ cs, customCs settings = some (cs, true)

/-- The circle size under mods that change it so. -/
def csUnder (change : CsChange) (baseCs : F32) (settings : Option DifficultySettings) : F64 :=
  match customCs settings with
  | some (cs, true) => cs
  | some (cs, false) => change.apply cs
  | none => change.apply baseCs

/-- Under two changes a request has the same circle size if it has one with mods, or where they
    meet. -/
theorem csUnder_eq_iff (a b : CsChange) (baseCs : F32) (settings : Option DifficultySettings) :
    csUnder a baseCs settings = csUnder b baseCs settings ↔
      CsWithMods settings ∨ SameCs a b (startCs baseCs settings) := by
  unfold csUnder CsWithMods startCs
  rcases customCs settings with _ | ⟨cs, _ | _⟩
  · -- no custom size
    simp [CsChange.apply_eq_iff]
  · -- a custom one without mods
    simp [CsChange.apply_eq_iff]
  · simp

/-- What the flags do to a circle size. -/
def flagChange (settings : Option DifficultySettings) : CsChange :=
  let bits := (settings.bind (·.mods)).getD 0
  .of (bits &&& 16 != 0) (bits &&& 2 != 0)

/-- `effective_cs` is the circle size under the flags. -/
theorem effectiveCs_eq (baseCs : F32) (settings : Option DifficultySettings) :
    effectiveCs baseCs settings = csUnder (flagChange settings) baseCs settings := by
  have happly : ∀ cs : F64,
      (if (settings.bind (·.mods)).getD 0 &&& 16 ≠ 0 then min (cs * (13 / 10)) 10
        else if (settings.bind (·.mods)).getD 0 &&& 2 ≠ 0 then cs * (1 / 2) else cs)
        = (flagChange settings).apply cs := by
    intro cs
    unfold flagChange
    generalize (settings.bind (·.mods)).getD 0 = bits
    show _ = (CsChange.of (bits &&& 16 != 0) (bits &&& 2 != 0)).apply cs
    by_cases hhr : bits &&& 16 = 0
    · by_cases hez : bits &&& 2 = 0
      · rw [if_neg (not_not_intro hhr), if_neg (not_not_intro hez), hhr, hez]
        rfl
      · have hof : CsChange.of (bits &&& 16 != 0) (bits &&& 2 != 0) = .easy := by
          simp [CsChange.of, hhr, hez]
        rw [if_neg (not_not_intro hhr), if_pos hez, hof]
        show cs * (1 / 2) = cs / 2
        ring
    · have hof : CsChange.of (bits &&& 16 != 0) (bits &&& 2 != 0) = .hardRock := by
        simp [CsChange.of, hhr]
      rw [if_pos hhr, hof]
      rfl
  unfold effectiveCs csUnder
  -- from here on, what the flags do is `happly`
  rcases hcustom : customCs settings with _ | ⟨cs, _ | _⟩
  · unfold customCs at hcustom
    simp only [hcustom, Option.getD_none]
    exact happly baseCs
  · unfold customCs at hcustom
    simp only [hcustom, Option.getD_some]
    exact happly cs
  · unfold customCs at hcustom
    simp only [hcustom, Option.getD_some, if_true]

/-! ## The mods of the calculation -/

/-- What the library documents about HR and EZ: which mods they are in, and their bits. -/
structure CsMods where
  hardRock : Mods → Bool
  easy : Mods → Bool
  hardRock_bits : ∀ bits, hardRock (rosu.modsOfBits bits) = (bits &&& 16 != 0)
  easy_bits : ∀ bits, easy (rosu.modsOfBits bits) = (bits &&& 2 != 0)
  hardRock_default : hardRock rosu.modsDefault = false
  easy_default : easy rosu.modsDefault = false

variable {rosu}

/-- What mods do to a circle size. -/
def CsMods.change (csMods : CsMods rosu) (mods : Mods) : CsChange :=
  .of (csMods.hardRock mods) (csMods.easy mods)

/-- The mods of the flags do what the flags do. -/
theorem CsMods.change_flagMods (csMods : CsMods rosu) (settings : Option DifficultySettings) :
    csMods.change (flagMods rosu (settings.bind (·.mods))) = flagChange settings := by
  unfold CsMods.change flagChange
  cases settings.bind (·.mods) with
  | none =>
    show CsChange.of (csMods.hardRock rosu.modsDefault) (csMods.easy rosu.modsDefault) = _
    rw [csMods.hardRock_default, csMods.easy_default]
    rfl
  | some bits =>
    show CsChange.of (csMods.hardRock (rosu.modsOfBits bits))
      (csMods.easy (rosu.modsOfBits bits)) = _
    rw [csMods.hardRock_bits, csMods.easy_bits]
    rfl

/-- The acronyms, where they are present and parse, change the circle size as the flags do, or not
    at all in effect. -/
def AcronymsKeepCs (csMods : CsMods rosu) (baseCs : F32) (settings : Option DifficultySettings) :
    Prop :=
  ∀ str gameMods, settings.bind (·.modsStr) = some str → rosu.parseMods str = some gameMods →
    CsWithMods settings ∨
      SameCs (flagChange settings) (csMods.change gameMods) (startCs baseCs settings)

/-- **The reported circle size is that of the calculation's mods** if and only if the acronyms,
    where they parse, do to it what the flags do. -/
theorem reported_cs_agrees_iff (csMods : CsMods rosu) (baseCs : F32)
    (settings : Option DifficultySettings) :
    effectiveCs baseCs settings
        = csUnder (csMods.change (Calculator.buildDifficulty rosu settings).mods) baseCs settings ↔
      AcronymsKeepCs csMods baseCs settings := by
  rw [effectiveCs_eq, buildDifficulty_mods, csUnder_eq_iff]
  unfold AcronymsKeepCs
  constructor
  · -- acronyms that parse are the mods of the calculation
    intro hsame str gameMods hstr hparse
    have hresolved : resolvedMods rosu settings = gameMods := by
      simp only [resolvedMods, hstr, Option.bind_some, hparse]
    rwa [hresolved] at hsame
  · intro hkeep
    cases hacronyms : (settings.bind (·.modsStr)).bind rosu.parseMods with
    | none =>
      have hresolved : resolvedMods rosu settings = flagMods rosu (settings.bind (·.mods)) := by
        simp only [resolvedMods, hacronyms]
      rw [hresolved, csMods.change_flagMods]
      exact Or.inr (Or.inl rfl)
    | some gameMods =>
      obtain ⟨str, hstr, hparse⟩ := Option.bind_eq_some_iff.mp hacronyms
      have hresolved : resolvedMods rosu settings = gameMods := by
        simp only [resolvedMods, hacronyms]
      rw [hresolved]
      exact hkeep str gameMods hstr hparse

/-- A library that knows HR and EZ by their acronyms. -/
def RosuPp.hardRock :
    RosuPp ByteArray UInt32 (List DifficultyAttributes) (List PerformanceAttributes) :=
  { RosuPp.sample with
    parseMods := fun s => if s = "HR" then some 16 else if s = "EZ" then some 2 else none }

/-- Its mod sets are bitflags. -/
def CsMods.bits : CsMods RosuPp.hardRock where
  hardRock := fun mods => mods &&& 16 != 0
  easy := fun mods => mods &&& 2 != 0
  hardRock_bits := fun _ => rfl
  easy_bits := fun _ => rfl
  hardRock_default := rfl
  easy_default := rfl

/-- HR by acronym on CS 4: the calculation has CS 5.2, and 4 is reported. -/
theorem reported_cs_ignores_acronyms :
    CsMods.bits.hardRock (Calculator.buildDifficulty RosuPp.hardRock
        (some { modsStr := some "HR" })).mods = true ∧
      effectiveCs 4 (some { modsStr := some "HR" }) = 4 ∧
      csUnder (CsMods.bits.change (Calculator.buildDifficulty RosuPp.hardRock
        (some { modsStr := some "HR" })).mods) 4 (some { modsStr := some "HR" }) = 26 / 5 := by
  refine ⟨by decide, rfl, ?_⟩
  show min ((4 : F64) * (13 / 10)) 10 = 26 / 5
  rw [min_eq_left (by norm_num)]
  norm_num

/-- The theorem at a custom circle size with mods, which no mods change. -/
theorem reported_cs_agrees_custom :
    let settings : DifficultySettings :=
      { cs := some 7, csWithMods := some true, modsStr := some "HR" }
    effectiveCs 4 (some settings)
      = csUnder (CsMods.bits.change (Calculator.buildDifficulty RosuPp.hardRock
          (some settings)).mods) 4 (some settings) := by
  intro settings
  refine (reported_cs_agrees_iff CsMods.bits 4 (some settings)).mpr ?_
  intro str gameMods _ _
  exact Or.inl ⟨7, rfl⟩

end PpService
