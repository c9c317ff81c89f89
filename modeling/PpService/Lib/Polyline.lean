/-
  Polylines over an ordered field: the piecewise linear curve through the elements of a list,
  one element every `d` units of time, and its equidistant samples.

  The curve is computed (`eval`), so a sample can be evaluated; what later proofs use of it is
  `between_of_mem_samples`: a sample lies in the segment of two neighbouring elements.

  A peak keeps its height but for a part that grows with the distance of the samples
  (`exists_sample_ge`); a spike that falls between two samples shows nowhere (`samples_spike`).
  Both are about one curve, whatever it is a curve of.
-/
import Mathlib.Algebra.Order.Floor.Semiring
import Mathlib.Analysis.Convex.Segment
import Mathlib.Tactic.Linarith
import Mathlib.Tactic.Ring

namespace Polyline

variable {K : Type*} [Field K] [LinearOrder K]

/-! ## Convexity -/

/-- `p` is a convex combination of two neighbouring elements. -/
def Between (e : List K) (p : K) : Prop :=
  ∃ j a b, e[j]? = some a ∧ e[j + 1]? = some b ∧ p ∈ segment K a b

/-- A convex combination of elements that are all at least `m` is at least `m`. -/
theorem Between.le [IsStrictOrderedRing K] {e : List K} {p m : K} (h : Between e p)
    (hm : ∀ a ∈ e, m ≤ a) : m ≤ p := by
  obtain ⟨j, a, b, ha, hb, hp⟩ := h
  have hma : m ≤ a := hm a (List.mem_of_getElem? ha)
  have hmb : m ≤ b := hm b (List.mem_of_getElem? hb)
  obtain ⟨s, t, hs, ht, hst, rfl⟩ := hp
  calc m = s * m + t * m := by rw [← add_mul, hst, one_mul]
    _ ≤ s * a + t * b := by gcongr

/-! ## The curve -/

variable [FloorSemiring K]

/-- The piece that the position `u` (counted in elements) lies on, for `c` elements.  The right
    end of the curve belongs to the last piece. -/
def piece (c : Nat) (u : K) : Nat := min ⌊u⌋₊ (c - 2)

/-- The height at the position `u`. -/
def height (e : List K) (u : K) : K :=
  let j := piece e.length u
  (1 - (u - j)) * e.getD j 0 + (u - j) * e.getD (j + 1) 0

/-- The curve that has element `j` at time `j * d`. -/
def eval (d : K) (e : List K) (t : K) : K := height e (t / d)

/-- The time of sample `i` out of `n`, equidistant over `[0, (c - 1) * d]` with both ends. -/
def sampleTime (d : K) (c n i : Nat) : K := i * (((c : K) - 1) * d) / ((n : K) - 1)

/-- The heights at `n` equidistant times. -/
def samples (d : K) (e : List K) (n : Nat) : List K :=
  (List.range n).map fun i => eval d e (sampleTime d e.length n i)

@[simp] theorem length_samples (d : K) (e : List K) (n : Nat) : (samples d e n).length = n := by
  simp [samples]

theorem getElem?_samples {n i : Nat} (d : K) (e : List K) (hi : i < n) :
    (samples d e n)[i]? = some (eval d e (sampleTime d e.length n i)) := by
  simp [samples, List.getElem?_range hi]

/-! ## Samples lie between neighbours -/

variable [IsStrictOrderedRing K]

/-- A position on the curve lies on its piece: within one element from the left end of it. -/
theorem position_in_piece {c : Nat} {u : K} (hc : 2 ≤ c) (h0 : 0 ≤ u) (h1 : u ≤ (c : K) - 1) :
    (piece c u : K) ≤ u ∧ u ≤ piece c u + 1 := by
  have hfloor : (⌊u⌋₊ : K) ≤ u := Nat.floor_le h0
  rcases le_total ⌊u⌋₊ (c - 2) with hle | hle
  · -- a piece before the last one starts at the floor
    rw [piece, min_eq_left hle]
    exact ⟨hfloor, (Nat.lt_floor_add_one u).le⟩
  · -- the last piece ends where the curve does
    rw [piece, min_eq_right hle]
    have hlast : ((c - 2 : Nat) : K) + 1 = (c : K) - 1 := by
      rw [Nat.cast_sub hc]
      push_cast
      ring
    exact ⟨le_trans (by exact_mod_cast hle) hfloor, by rw [hlast]; exact h1⟩

/-- The curve between its ends is a convex combination of two neighbouring elements: the ends of
    the piece that the position is on. -/
theorem between_height {e : List K} {u : K} (he : 2 ≤ e.length) (h0 : 0 ≤ u)
    (h1 : u ≤ (e.length : K) - 1) : Between e (height e u) := by
  obtain ⟨hl, hr⟩ := position_in_piece he h0 h1
  have hj : piece e.length u ≤ e.length - 2 := min_le_right _ _
  have hlt : piece e.length u < e.length := by omega
  have hlt' : piece e.length u + 1 < e.length := by omega
  refine ⟨piece e.length u, e[piece e.length u], e[piece e.length u + 1],
    List.getElem?_eq_getElem hlt, List.getElem?_eq_getElem hlt', ?_⟩
  refine ⟨1 - (u - piece e.length u), u - piece e.length u, by linarith, by linarith,
    by ring, ?_⟩
  simp [height, List.getD_eq_getElem?_getD, hlt, hlt']

/-- The samples lie on the curve, for any distance of the elements. -/
theorem sample_position (d : K) {c n i : Nat} (hc : 1 ≤ c) (hi : i < n) :
    0 ≤ sampleTime d c n i / d ∧ sampleTime d c n i / d ≤ (c : K) - 1 := by
  have hc' : (0 : K) ≤ (c : K) - 1 := by
    have : (1 : K) ≤ c := by exact_mod_cast hc
    linarith
  rcases eq_or_ne d 0 with rfl | hd
  · -- with no distance at all every position is the left end
    simpa [sampleTime] using hc'
  · -- the distance cancels
    have hpos : sampleTime d c n i / d = ((c : K) - 1) * (i / ((n : K) - 1)) := by
      calc sampleTime d c n i / d = ((c : K) - 1) * (i / ((n : K) - 1)) * (d / d) := by
            rw [sampleTime]
            ring
        _ = ((c : K) - 1) * (i / ((n : K) - 1)) := by rw [div_self hd, mul_one]
    have hn : (i : K) ≤ (n : K) - 1 := by
      have : ((i + 1 : Nat) : K) ≤ n := by exact_mod_cast hi
      push_cast at this
      linarith
    have hi0 : (0 : K) ≤ i := Nat.cast_nonneg i
    have hfrac : (i : K) / ((n : K) - 1) ≤ 1 := div_le_one_of_le₀ hn (hi0.trans hn)
    rw [hpos]
    exact ⟨mul_nonneg hc' (div_nonneg hi0 (hi0.trans hn)), mul_le_of_le_one_right hc' hfrac⟩

/-- Every sample lies in the segment of two neighbouring elements. -/
theorem between_of_mem_samples {d p : K} {e : List K} {n : Nat} (he : 2 ≤ e.length)
    (hp : p ∈ samples d e n) : Between e p := by
  obtain ⟨i, hi, rfl⟩ := List.mem_map.mp hp
  obtain ⟨h0, h1⟩ := sample_position d (show 1 ≤ e.length by omega) (List.mem_range.mp hi)
  exact between_height he h0 h1

/-! ## Peaks

  A sample close to an element is close to its height: on a curve that is nowhere negative it has
  all of it but the part that the distance makes out (`le_height`).  Some sample is at most half
  a sample distance away (`exists_sample_near`), so with samples less than two elements apart
  every positive element shows; with samples two elements apart one can fall between them. -/

/-- The curve is above the tent of height `e[k]` and half-width one around element `k`. -/
theorem le_height {e : List K} {u : K} (he : 2 ≤ e.length) (h0 : 0 ≤ u)
    (h1 : u ≤ (e.length : K) - 1) (hnonneg : ∀ a ∈ e, 0 ≤ a) {k : Nat} (hk : k < e.length) :
    (1 - |u - k|) * e[k] ≤ height e u := by
  obtain ⟨hl, hr⟩ := position_in_piece he h0 h1
  have hj : piece e.length u ≤ e.length - 2 := min_le_right _ _
  have hlt : piece e.length u < e.length := by omega
  have hlt' : piece e.length u + 1 < e.length := by omega
  generalize hpiece : piece e.length u = j at hl hr hlt hlt'
  have heval : height e u = (1 - (u - j)) * e[j] + (u - j) * e[j + 1] := by
    simp [height, hpiece, List.getD_eq_getElem?_getD, hlt, hlt']
  have hleft : 0 ≤ (1 - (u - j)) * e[j] :=
    mul_nonneg (by linarith) (hnonneg _ (List.getElem_mem hlt))
  have hright : 0 ≤ (u - j) * e[j + 1] :=
    mul_nonneg (by linarith) (hnonneg _ (List.getElem_mem hlt'))
  rw [heval]
  by_cases hkj : k = j
  · -- element `k` is the left end of the piece
    subst hkj
    rw [abs_of_nonneg (by linarith)]
    linarith
  by_cases hkj' : k = j + 1
  · -- or its right end
    subst hkj'
    have hdist : |u - ((j + 1 : Nat) : K)| = 1 - (u - j) := by
      rw [abs_of_nonpos (by push_cast; linarith)]
      push_cast
      ring
    rw [hdist]
    linarith
  · -- no closer than one element, where the tent has ended
    have hfar : 1 ≤ |u - k| := by
      rcases Nat.lt_or_ge k j with hlow | hhigh
      · have hk1 : (k : K) + 1 ≤ j := by exact_mod_cast hlow
        rw [abs_of_nonneg (by linarith)]
        linarith
      · have hk2 : (j : K) + 2 ≤ k := by
          have : j + 2 ≤ k := by omega
          exact_mod_cast this
        rw [abs_of_nonpos (by linarith)]
        linarith
    have hneg : (1 - |u - k|) * e[k] ≤ 0 :=
      mul_nonpos_of_nonpos_of_nonneg (by linarith) (hnonneg _ (List.getElem_mem hk))
    linarith

omit [FloorSemiring K] in
/-- Where sample `i` stands, counted in elements. -/
theorem sampleTime_div {d : K} (hd : d ≠ 0) (c n i : Nat) :
    sampleTime d c n i / d = i * (((c : K) - 1) / ((n : K) - 1)) := by
  calc sampleTime d c n i / d = i * (((c : K) - 1) / ((n : K) - 1)) * (d / d) := by
        rw [sampleTime]
        ring
    _ = i * (((c : K) - 1) / ((n : K) - 1)) := by rw [div_self hd, mul_one]

/-- Some sample is at most half a sample distance away from an element: the one at the position of
    the element rounded to the nearest. -/
theorem exists_sample_near {d : K} (hd : d ≠ 0) {c n k : Nat} (hn : 2 ≤ n) (hk : k < c) :
    ∃ i < n, |sampleTime d c n i / d - k| ≤ ((c : K) - 1) / (2 * ((n : K) - 1)) := by
  have hn' : (0 : K) < (n : K) - 1 := by
    have : (2 : K) ≤ n := by exact_mod_cast hn
    linarith
  have hk' : (k : K) ≤ (c : K) - 1 := by
    have : ((k + 1 : Nat) : K) ≤ c := by exact_mod_cast hk
    push_cast at this
    linarith
  rcases Nat.lt_or_ge 1 c with hc | hc
  · have hc' : (0 : K) < (c : K) - 1 := by
      have : (2 : K) ≤ c := by exact_mod_cast hc
      linarith
    -- the element stands at `x` sample distances; take the sample next to it
    obtain ⟨x, hx⟩ : ∃ x : K, x = k * ((n : K) - 1) / ((c : K) - 1) := ⟨_, rfl⟩
    have hx0 : 0 ≤ x := by
      rw [hx]
      exact div_nonneg (mul_nonneg (Nat.cast_nonneg k) hn'.le) hc'.le
    have hx1 : x ≤ (n : K) - 1 := by
      rw [hx, div_le_iff₀ hc', mul_comm]
      exact mul_le_mul_of_nonneg_left hk' hn'.le
    have hlow : (⌊x + 1 / 2⌋₊ : K) ≤ x + 1 / 2 := Nat.floor_le (by linarith)
    have hhigh : x + 1 / 2 < ⌊x + 1 / 2⌋₊ + 1 := Nat.lt_floor_add_one _
    refine ⟨⌊x + 1 / 2⌋₊, ?_, ?_⟩
    · -- it is one of the samples
      have hlt : (⌊x + 1 / 2⌋₊ : K) < n := by linarith
      exact_mod_cast hlt
    · have hdist : sampleTime d c n ⌊x + 1 / 2⌋₊ / d - k =
          (⌊x + 1 / 2⌋₊ - x) * (((c : K) - 1) / ((n : K) - 1)) := by
        have hkx : (k : K) = x * (((c : K) - 1) / ((n : K) - 1)) := by
          rw [hx, div_mul_div_cancel₀ hc'.ne', mul_div_cancel_right₀ _ hn'.ne']
        rw [sampleTime_div hd, sub_mul, ← hkx]
      have hclose : |(⌊x + 1 / 2⌋₊ : K) - x| ≤ 1 / 2 := abs_le.mpr ⟨by linarith, by linarith⟩
      rw [hdist, abs_mul, abs_of_pos (div_pos hc' hn')]
      calc |(⌊x + 1 / 2⌋₊ : K) - x| * (((c : K) - 1) / ((n : K) - 1))
          ≤ 1 / 2 * (((c : K) - 1) / ((n : K) - 1)) :=
            mul_le_mul_of_nonneg_right hclose (div_pos hc' hn').le
        _ = ((c : K) - 1) / (2 * ((n : K) - 1)) := by rw [div_mul_div_comm, one_mul]
  · -- a curve of one element has all its samples there
    obtain rfl : c = 1 := by omega
    obtain rfl : k = 0 := by omega
    exact ⟨0, by omega, by simp [sampleTime]⟩

/-- **Peaks keep their height** but for a part that grows with the distance of the samples.  The
    sample next to the element is on the tent over it, and the curve is above the tent. -/
theorem exists_sample_ge {d : K} (hd : d ≠ 0) {e : List K} {n : Nat} (he : 2 ≤ e.length)
    (hn : 2 ≤ n) (hnonneg : ∀ a ∈ e, 0 ≤ a) {a : K} (ha : a ∈ e) :
    ∃ p ∈ samples d e n, (1 - ((e.length : K) - 1) / (2 * ((n : K) - 1))) * a ≤ p := by
  obtain ⟨k, hk, rfl⟩ := List.mem_iff_getElem.mp ha
  obtain ⟨i, hi, hnear⟩ := exists_sample_near hd hn hk
  obtain ⟨h0, h1⟩ := sample_position d (show 1 ≤ e.length by omega) hi
  refine ⟨_, List.mem_of_getElem? (getElem?_samples d e hi), ?_⟩
  calc (1 - ((e.length : K) - 1) / (2 * ((n : K) - 1))) * e[k]
      ≤ (1 - |sampleTime d e.length n i / d - k|) * e[k] :=
        mul_le_mul_of_nonneg_right (by linarith) (hnonneg _ ha)
    _ ≤ eval d e (sampleTime d e.length n i) := le_height he h0 h1 hnonneg hk

omit [LinearOrder K] [FloorSemiring K] [IsStrictOrderedRing K] in
/-- A spike next to the left end. -/
def spike (c : Nat) (v : K) : List K := 0 :: v :: List.replicate (c - 2) 0

omit [LinearOrder K] [FloorSemiring K] [IsStrictOrderedRing K] in
theorem length_spike {c : Nat} (hc : 2 ≤ c) (v : K) : (spike c v).length = c := by
  simp [spike]
  omega

omit [LinearOrder K] [FloorSemiring K] [IsStrictOrderedRing K] in
/-- A spike is flat everywhere but at one element. -/
theorem getD_spike (c : Nat) (v : K) {j : Nat} (hj : j ≠ 1) : (spike c v).getD j 0 = 0 := by
  match j, hj with
  | 0, _ => rfl
  | j + 2, _ =>
    show (List.replicate (c - 2) (0 : K)).getD j 0 = 0
    rw [List.getD_eq_getElem?_getD, List.getElem?_replicate]
    split <;> rfl

/-- With samples two elements apart or more, none comes near it. -/
theorem samples_spike {d : K} (hd : d ≠ 0) {c n : Nat} (hn : 2 ≤ n) (hc : 2 * n ≤ c + 1) (v : K) :
    ∀ p ∈ samples d (spike c v) n, p = 0 := by
  intro p hp
  obtain ⟨i, hi, rfl⟩ := List.mem_map.mp hp
  have hlen := length_spike (show 2 ≤ c by omega) v
  obtain ⟨h0, h1⟩ := sample_position d (show 1 ≤ c by omega) (List.mem_range.mp hi)
  show height (spike c v) (sampleTime d (spike c v).length n i / d) = 0
  rw [hlen]
  have hpos := sampleTime_div hd c n i
  generalize sampleTime d c n i / d = u at h0 h1 hpos
  obtain ⟨hl, hr⟩ := position_in_piece (show 2 ≤ c by omega) h0 h1
  simp only [height, hlen]
  generalize piece c u = j at hl hr
  have hn' : (0 : K) < (n : K) - 1 := by
    have : (2 : K) ≤ n := by exact_mod_cast hn
    linarith
  -- the first sample stands at the left end, the second at two elements or beyond
  have hgap : u = 0 ∨ 2 ≤ u := by
    rcases Nat.eq_zero_or_pos i with rfl | hi
    · left
      rw [hpos]
      simp
    · right
      have hi1 : (1 : K) ≤ i := by exact_mod_cast hi
      have hstep : (2 : K) ≤ ((c : K) - 1) / ((n : K) - 1) := by
        rw [le_div_iff₀ hn']
        have : ((2 * n : Nat) : K) ≤ ((c + 1 : Nat) : K) := by exact_mod_cast hc
        push_cast at this
        linarith
      calc (2 : K) ≤ 1 * (((c : K) - 1) / ((n : K) - 1)) := by linarith
        _ ≤ i * (((c : K) - 1) / ((n : K) - 1)) := mul_le_mul_of_nonneg_right hi1 (by linarith)
        _ = u := hpos.symm
  have hflat : ∀ j, j ≠ 1 → (spike c v).getD j 0 = 0 := fun j hj => getD_spike c v hj
  match j, hl, hr with
  | 0, hl, hr =>
    have hu : u = 0 := by
      push_cast at hr
      rcases hgap with hu | hge
      · exact hu
      · linarith
    rw [hflat 0 (by decide), hu]
    simp
  | 1, hl, hr =>
    have hu : u = 2 := by
      push_cast at hl hr
      rcases hgap with hu | hge
      · linarith
      · linarith
    rw [hflat (1 + 1) (by decide), hu]
    push_cast
    ring
  | j + 2, hl, hr =>
    rw [hflat (j + 2) (by omega), hflat (j + 2 + 1) (by omega)]
    ring

end Polyline
