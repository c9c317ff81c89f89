/-
  DELIMITERS IN A TEXT: the leftmost occurrence of a delimiter, what splitting at every
  occurrence gives, and the rewriting that puts an opening and a closing mark in place of the
  delimiters, pair by pair.

  A text is a list over any alphabet.  Everything rests on `cut?`, the leftmost occurrence; a
  text has none, one, or (at least) two that do not overlap, and what is left after two of them
  is shorter.  So facts about all the occurrences go by `pair_induction`, three cases each.

  Facts about a text with another one in front go by `Inert d x`: `x` has no say in where `d`
  occurs in what follows it.  A letter that is not in `d` is inert, and so is any text of such
  letters.

  A text can be spelled letter by letter over another alphabet.  Where the spelling of the
  delimiter occurs only as a spelling of the delimiter (`Spells`), splitting, counting, replacing
  and marking commute with the spelling.
-/
import Mathlib.Data.List.Basic

namespace Delim

variable {α : Type*}

/-- An occurrence at the front that starts before `c`, which is not in it, ends before `c`. -/
theorem prefix_of_prefix_append_cons {d x y : List α} {c : α} (hc : c ∉ d)
    (h : d <+: x ++ c :: y) : d <+: x := by
  have hsnoc : x ++ [c] <+: x ++ c :: y := ⟨y, by simp⟩
  rcases List.prefix_or_prefix_of_prefix h hsnoc with hd | hd
  · -- the occurrence ends at `c` at the latest
    rcases List.prefix_concat_iff.mp hd with heq | hx
    · exact absurd (heq ▸ List.mem_append_right x (List.mem_singleton_self c)) hc
    · exact hx
  · -- it goes beyond `c`, so it holds it
    exact absurd (hd.subset (List.mem_append_right x (List.mem_singleton_self c))) hc

variable [DecidableEq α]

/-! ## The leftmost occurrence -/

/-- What stands before and after the leftmost occurrence of `d`, which is not empty. -/
def cut? (d : List α) : List α → Option (List α × List α)
  | [] => none
  | c :: s =>
    if d.isPrefixOf (c :: s) then some ([], (c :: s).drop d.length)
    else (cut? d s).map fun p => (c :: p.1, p.2)

/-- An occurrence at the front is the leftmost one. -/
theorem cut?_front {d : List α} (hd : d ≠ []) (s : List α) :
    cut? d (d ++ s) = some ([], s) := by
  cases d with
  | nil => exact absurd rfl hd
  | cons x d =>
    have hpre : (x :: d).isPrefixOf (x :: (d ++ s)) = true :=
      List.isPrefixOf_iff_prefix.mpr ⟨s, rfl⟩
    rw [List.cons_append, cut?, if_pos hpre]
    simp

/-- Where none is at the front, the leftmost one is that of the rest. -/
theorem cut?_cons {d : List α} {c : α} {s : List α} (h : ¬ d <+: c :: s) :
    cut? d (c :: s) = (cut? d s).map fun p => (c :: p.1, p.2) := by
  rw [cut?, if_neg (by rwa [List.isPrefixOf_iff_prefix])]

/-- The parts of a cut make up the text. -/
theorem eq_of_cut? {d s a b : List α} (h : cut? d s = some (a, b)) : s = a ++ (d ++ b) := by
  induction s generalizing a with
  | nil => cases h
  | cons c s ih =>
    by_cases hpre : d <+: c :: s
    · -- an occurrence at the front: nothing before it
      obtain ⟨r, hr⟩ := hpre
      rw [cut?, if_pos (List.isPrefixOf_iff_prefix.mpr ⟨r, hr⟩), ← hr] at h
      simp only [List.drop_left, Option.some.injEq, Prod.mk.injEq] at h
      obtain ⟨rfl, rfl⟩ := h
      exact hr.symm
    · -- none at the front: the first element goes to what stands before
      rw [cut?_cons hpre] at h
      obtain ⟨⟨a', b'⟩, hcut, hpair⟩ := Option.map_eq_some_iff.mp h
      obtain ⟨rfl, rfl⟩ := Prod.mk.inj hpair
      rw [ih hcut]
      rfl

/-- Before the leftmost occurrence there is none. -/
theorem cut?_before {d s a b : List α} (h : cut? d s = some (a, b)) : cut? d a = none := by
  induction s generalizing a with
  | nil => cases h
  | cons c s ih =>
    by_cases hpre : d <+: c :: s
    · -- nothing stands before an occurrence at the front
      rw [cut?, if_pos (List.isPrefixOf_iff_prefix.mpr hpre)] at h
      obtain ⟨rfl, -⟩ := Prod.mk.inj (Option.some.inj h)
      rfl
    · rw [cut?_cons hpre] at h
      obtain ⟨⟨a', b'⟩, hcut, hpair⟩ := Option.map_eq_some_iff.mp h
      obtain ⟨rfl, rfl⟩ := Prod.mk.inj hpair
      have hnot : ¬ d <+: c :: a' := by
        intro hshort
        refine hpre (hshort.trans ?_)
        rw [eq_of_cut? hcut]
        exact ⟨d ++ b', rfl⟩
      rw [cut?_cons hnot, ih hcut]
      rfl

/-- What is left after an occurrence is shorter. -/
theorem length_lt_of_cut? {d s a b : List α} (hd : d ≠ []) (h : cut? d s = some (a, b)) :
    b.length < s.length := by
  have hpos := List.length_pos_iff.mpr hd
  rw [eq_of_cut? h, List.length_append, List.length_append]
  omega

/-- The leftmost occurrence in a text is that of every longer one. -/
theorem cut?_append_of_cut? {d x a b : List α} (h : cut? d x = some (a, b)) (y : List α) :
    cut? d (x ++ y) = some (a, b ++ y) := by
  induction x generalizing a with
  | nil => cases h
  | cons c x ih =>
    by_cases hpre : d <+: c :: x
    · -- an occurrence at the front stays at the front
      obtain ⟨r, hr⟩ := hpre
      rw [cut?, if_pos (List.isPrefixOf_iff_prefix.mpr ⟨r, hr⟩), ← hr, List.drop_left] at h
      obtain ⟨rfl, rfl⟩ := Prod.mk.inj (Option.some.inj h)
      have hlong : d <+: c :: (x ++ y) := ⟨r ++ y, by rw [← List.append_assoc, hr]; rfl⟩
      rw [List.cons_append, cut?, if_pos (List.isPrefixOf_iff_prefix.mpr hlong),
        ← List.cons_append, ← hr, List.append_assoc, List.drop_left]
    · rw [cut?_cons hpre] at h
      obtain ⟨⟨a', b'⟩, hcut, hpair⟩ := Option.map_eq_some_iff.mp h
      obtain ⟨rfl, rfl⟩ := Prod.mk.inj hpair
      have hnot : ¬ d <+: c :: (x ++ y) := by
        -- an occurrence at the front would end before the one that was found
        intro hlong
        refine hpre (List.prefix_of_prefix_length_le hlong ⟨y, rfl⟩ ?_)
        rw [eq_of_cut? hcut, List.length_cons, List.length_append, List.length_append]
        omega
      rw [List.cons_append, cut?_cons hnot, ih hcut]
      rfl

/-- The induction over the occurrences from left to right. -/
theorem cut_induction {d : List α} (hd : d ≠ []) {P : List α → Prop}
    (none : ∀ s, cut? d s = none → P s)
    (some : ∀ s a b, cut? d s = some (a, b) → P b → P s) (s : List α) : P s := by
  induction hn : s.length using Nat.strongRecOn generalizing s with
  | ind n ih =>
    rcases hs : cut? d s with _ | ⟨a, b⟩
    · exact none s hs
    · -- what is behind the occurrence is shorter
      have hb := length_lt_of_cut? hd hs
      exact some s a b hs (ih b.length (by omega) b rfl)

/-- A text has no occurrence of the delimiter, or one, or two and a rest. -/
theorem pair_induction {d : List α} (hd : d ≠ []) {P : List α → Prop}
    (none : ∀ s, cut? d s = none → P s)
    (one : ∀ s a b, cut? d s = some (a, b) → cut? d b = Option.none → P s)
    (two : ∀ s a b q r, cut? d s = some (a, b) → cut? d b = some (q, r) → P r → P s)
    (s : List α) : P s := by
  induction hn : s.length using Nat.strongRecOn generalizing s with
  | ind n ih =>
    rcases hs : cut? d s with _ | ⟨a, b⟩
    · exact none s hs
    · -- behind one occurrence, and behind a second, the text is shorter
      have hb := length_lt_of_cut? hd hs
      rcases hb' : cut? d b with _ | ⟨q, r⟩
      · exact one s a b hs hb'
      · have hr := length_lt_of_cut? hd hb'
        exact two s a b q r hs hb' (ih r.length (by omega) r rfl)

/-- A single element that does not occur is one that the text does not hold. -/
theorem cut?_singleton_eq_none {x : α} {s : List α} : cut? [x] s = none ↔ x ∉ s := by
  induction s with
  | nil => simp [cut?]
  | cons c s ih =>
    by_cases hc : x = c
    · subst hc
      rw [show x :: s = [x] ++ s from rfl, cut?_front (List.cons_ne_nil x [])]
      simp
    · -- another element in front is no occurrence
      have hnot : ¬ [x] <+: c :: s := by
        rintro ⟨r, hr⟩
        exact hc (List.cons.inj hr).1
      rw [cut?_cons hnot, Option.map_eq_none_iff, ih, List.mem_cons]
      simp [hc]

/-! ## Texts without a say -/

/-- In front of any text `x` neither has an occurrence nor takes part in one. -/
def Inert (d x : List α) : Prop :=
  ∀ s, cut? d (x ++ s) = (cut? d s).map fun p => (x ++ p.1, p.2)

theorem Inert.nil (d : List α) : Inert d [] := by
  intro s
  simp

/-- Two texts without a say have none together: an occurrence cannot start in the first and end in
    the second, as the first has no say in front of anything. -/
theorem Inert.append {d x y : List α} (hx : Inert d x) (hy : Inert d y) : Inert d (x ++ y) := by
  intro s
  rw [List.append_assoc, hx, hy, Option.map_map]
  simp only [Function.comp_def, List.append_assoc]

/-- An inert text in front of an occurrence is what stands before it. -/
theorem Inert.cut?_delim {d x : List α} (hx : Inert d x) (hd : d ≠ []) (s : List α) :
    cut? d (x ++ (d ++ s)) = some (x, s) := by
  rw [hx, cut?_front hd]
  simp

/-- One more element has no say if no occurrence starts with it, whatever follows. -/
theorem Inert.cons {d x : List α} {c : α} (hc : ∀ s, ¬ d <+: c :: (x ++ s)) (hx : Inert d x) :
    Inert d (c :: x) := by
  intro s
  rw [List.cons_append, cut?_cons (hc s), hx s, Option.map_map]
  rfl

/-- A text without an occurrence is inert once an element follows that is in none. -/
theorem Inert.snoc {d x : List α} {c : α} (hd : d ≠ []) (hx : cut? d x = none) (hc : c ∉ d) :
    Inert d (x ++ [c]) := by
  induction x with
  | nil =>
    -- `c` alone: an occurrence would have to end before it starts
    refine Inert.cons (fun s hpre => hd ?_) (Inert.nil d)
    exact List.prefix_nil.mp (prefix_of_prefix_append_cons hc hpre)
  | cons e x ih =>
    -- an occurrence that starts at `e` ends before `c`, so within `x`
    have hnot : ¬ d <+: e :: x := by
      intro hpre
      rw [cut?, if_pos (List.isPrefixOf_iff_prefix.mpr hpre)] at hx
      cases hx
    rw [cut?_cons hnot, Option.map_eq_none_iff] at hx
    refine Inert.cons (fun s hpre => hnot ?_) (ih hx)
    refine prefix_of_prefix_append_cons (y := s) hc ?_
    simpa using hpre

/-- A text that shares no element with the delimiter has no say. -/
theorem Inert.of_disjoint {d x : List α} (hd : d ≠ []) (h : ∀ c ∈ x, c ∉ d) : Inert d x := by
  induction x with
  | nil => exact Inert.nil d
  | cons c x ih =>
    have hx : Inert d x := ih fun e he => h e (List.mem_cons_of_mem c he)
    have hc : Inert d ([] ++ [c]) := Inert.snoc hd rfl (h c List.mem_cons_self)
    exact hc.append hx

/-- Nor has a text a say that does not hold the first element of the delimiter. -/
theorem Inert.of_head {c : α} {d x : List α} (h : c ∉ x) : Inert (c :: d) x := by
  induction x with
  | nil => exact Inert.nil (c :: d)
  | cons e x ih =>
    refine Inert.cons (fun s hpre => h ?_) (ih fun hx => h (List.mem_cons_of_mem e hx))
    rw [(List.cons_prefix_cons.mp hpre).1]
    exact List.mem_cons_self

/-- A text without an occurrence and then one that shares no element with the delimiter. -/
theorem Inert.append_of_disjoint {d x y : List α} (hd : d ≠ []) (hx : cut? d x = none)
    (hy : y ≠ []) (h : ∀ c ∈ y, c ∉ d) : Inert d (x ++ y) := by
  obtain ⟨c, y, rfl⟩ := List.exists_cons_of_ne_nil hy
  have hsnoc : Inert d (x ++ [c]) := Inert.snoc hd hx (h c List.mem_cons_self)
  have hrest : Inert d y := Inert.of_disjoint hd fun e he => h e (List.mem_cons_of_mem c he)
  simpa using hsnoc.append hrest

/-! ## All the occurrences -/

/-- The texts between the occurrences.  The scan skips `k` elements, the rest of an
    occurrence. -/
def splitFrom (d : List α) : Nat → List α → List (List α)
  | _, [] => [[]]
  | k + 1, _ :: s => splitFrom d k s
  | 0, c :: s =>
    if d.isPrefixOf (c :: s) then [] :: splitFrom d (d.length - 1) s
    else (splitFrom d 0 s).modifyHead (c :: ·)

/-- The texts between the occurrences, from left to right. -/
def splitBy (d s : List α) : List (List α) := splitFrom d 0 s

/-- Skipping is dropping. -/
theorem splitFrom_eq_drop (d : List α) (k : Nat) (s : List α) :
    splitFrom d k s = splitBy d (s.drop k) := by
  induction s generalizing k with
  | nil => rw [List.drop_nil, splitBy, splitFrom, splitFrom]
  | cons c s ih =>
    cases k with
    | zero => rfl
    | succ k => rw [splitFrom, ih, List.drop_succ_cons]

/-- Without an occurrence the whole text is the one piece. -/
theorem splitBy_of_none {d s : List α} (h : cut? d s = none) : splitBy d s = [s] := by
  induction s with
  | nil => rfl
  | cons c s ih =>
    have hnot : ¬ d.isPrefixOf (c :: s) = true := by
      intro hpre
      rw [cut?, if_pos hpre] at h
      cases h
    rw [cut?, if_neg hnot, Option.map_eq_none_iff] at h
    have hs : splitFrom d 0 s = [s] := ih h
    rw [splitBy, splitFrom, if_neg hnot, hs]
    rfl

/-- The first piece ends at the leftmost occurrence. -/
theorem splitBy_of_cut? {d s a b : List α} (hd : d ≠ []) (h : cut? d s = some (a, b)) :
    splitBy d s = a :: splitBy d b := by
  induction s generalizing a with
  | nil => cases h
  | cons c s ih =>
    by_cases hpre : d.isPrefixOf (c :: s) = true
    · rw [cut?, if_pos hpre] at h
      obtain ⟨rfl, rfl⟩ := Prod.mk.inj (Option.some.inj h)
      -- at the front: the first piece is empty and the scan skips the occurrence
      obtain ⟨x, d, rfl⟩ := List.exists_cons_of_ne_nil hd
      rw [splitBy, splitFrom, if_pos hpre, splitFrom_eq_drop]
      rfl
    · rw [cut?, if_neg hpre] at h
      obtain ⟨⟨a', b'⟩, hcut, hpair⟩ := Option.map_eq_some_iff.mp h
      obtain ⟨rfl, rfl⟩ := Prod.mk.inj hpair
      -- further on: the first element goes to the first piece
      have hs : splitFrom d 0 s = a' :: splitBy d b' := ih hcut
      rw [splitBy, splitFrom, if_neg hpre, hs]
      rfl

/-- There is at least one piece. -/
theorem splitBy_ne_nil (d s : List α) : splitBy d s ≠ [] := by
  induction s with
  | nil => exact List.cons_ne_nil [] []
  | cons c s ih =>
    rw [splitBy, splitFrom]
    split
    · exact List.cons_ne_nil _ _
    · -- the first piece only grows
      intro h
      have hs : splitFrom d 0 s = [] := by
        cases hsplit : splitFrom d 0 s with
        | nil => rfl
        | cons p ps => rw [hsplit] at h; cases h
      exact ih hs

/-- How many occurrences there are, from left to right and without overlap. -/
def occurrences (d s : List α) : Nat := (splitBy d s).tail.length

theorem occurrences_of_none {d s : List α} (h : cut? d s = none) : occurrences d s = 0 := by
  rw [occurrences, splitBy_of_none h]
  rfl

/-- One is the leftmost, the others are behind it. -/
theorem occurrences_of_cut? {d s a b : List α} (hd : d ≠ []) (h : cut? d s = some (a, b)) :
    occurrences d s = occurrences d b + 1 := by
  rw [occurrences, splitBy_of_cut? hd h, List.tail_cons, occurrences, List.length_tail]
  have := List.length_pos_iff.mpr (splitBy_ne_nil d b)
  omega

/-- None counted, none found. -/
theorem cut?_eq_none_of_occurrences {d s : List α} (hd : d ≠ []) (h : occurrences d s = 0) :
    cut? d s = none := by
  rcases hs : cut? d s with _ | ⟨a, b⟩
  · rfl
  · rw [occurrences_of_cut? hd hs] at h
    omega

/-- A text without a say goes to the first piece of what follows. -/
theorem Inert.splitBy_append {d x : List α} (hd : d ≠ []) (hx : Inert d x) (s : List α) :
    splitBy d (x ++ s) = (splitBy d s).modifyHead (x ++ ·) := by
  rcases hs : cut? d s with _ | ⟨a, b⟩
  · have hxs : cut? d (x ++ s) = none := by rw [hx, hs, Option.map_none]
    rw [splitBy_of_none hs, splitBy_of_none hxs]
    rfl
  · have hxs : cut? d (x ++ s) = some (x ++ a, b) := by rw [hx, hs, Option.map_some]
    rw [splitBy_of_cut? hd hs, splitBy_of_cut? hd hxs]
    rfl

/-- And it changes no count. -/
theorem Inert.occurrences_append {d x : List α} (hd : d ≠ []) (hx : Inert d x) (s : List α) :
    occurrences d (x ++ s) = occurrences d s := by
  rw [occurrences, hx.splitBy_append hd, List.tail_modifyHead]
  rfl

/-- An element of no occurrence separates the occurrences before it from those after it. -/
theorem occurrences_append_cons {d : List α} {c : α} (hd : d ≠ []) (hc : c ∉ d)
    (x y : List α) : occurrences d (x ++ c :: y) = occurrences d x + occurrences d y := by
  induction x using cut_induction hd with
  | none x hx =>
    have hinert : Inert d (x ++ [c]) := Inert.snoc hd hx hc
    have hsplit : x ++ c :: y = (x ++ [c]) ++ y := by simp
    rw [hsplit, hinert.occurrences_append hd, occurrences_of_none hx, Nat.zero_add]
  | some x a b hx ih =>
    rw [occurrences_of_cut? hd (cut?_append_of_cut? hx _), ih, occurrences_of_cut? hd hx]
    omega

/-- Occurrences of a single element are counted as elements. -/
theorem occurrences_singleton (x : α) (s : List α) : occurrences [x] s = s.count x := by
  have hd : [x] ≠ [] := List.cons_ne_nil x []
  induction s using cut_induction hd with
  | none s hs =>
    rw [occurrences_of_none hs, List.count_eq_zero_of_not_mem (cut?_singleton_eq_none.mp hs)]
  | some s a b hs ih =>
    have ha : a.count x = 0 :=
      List.count_eq_zero_of_not_mem (cut?_singleton_eq_none.mp (cut?_before hs))
    rw [occurrences_of_cut? hd hs, ih, eq_of_cut? hs, List.count_append, ha,
      List.count_append, List.count_singleton_self]
    omega

/-! ## Putting texts in the place of the occurrences -/

/-- The pieces joined by `f i`, `f (i + 1)` and so on. -/
def weave (f : Nat → List α) : Nat → List (List α) → List α
  | _, [] => []
  | _, [p] => p
  | i, p :: q :: ps => p ++ (f i ++ weave f (i + 1) (q :: ps))

/-- `f j` in place of occurrence `j`, where the first one of the text is occurrence `i`. -/
def replaceFrom (d : List α) (f : Nat → List α) (i : Nat) (s : List α) : List α :=
  weave f i (splitBy d s)

theorem replaceFrom_of_none {d s : List α} (f : Nat → List α) (i : Nat)
    (h : cut? d s = none) : replaceFrom d f i s = s := by
  rw [replaceFrom, splitBy_of_none h, weave]

/-- The leftmost occurrence gets the first of the replacements. -/
theorem replaceFrom_of_cut? {d s a b : List α} (hd : d ≠ []) (f : Nat → List α) (i : Nat)
    (h : cut? d s = some (a, b)) :
    replaceFrom d f i s = a ++ (f i ++ replaceFrom d f (i + 1) b) := by
  obtain ⟨q, ps, hq⟩ := List.exists_cons_of_ne_nil (splitBy_ne_nil d b)
  rw [replaceFrom, splitBy_of_cut? hd h, replaceFrom, hq, weave]

/-- Only what `f` says of the occurrences of the text matters. -/
theorem replaceFrom_congr {d : List α} (hd : d ≠ []) {f g : Nat → List α} {i j : Nat}
    {s : List α} (h : ∀ k < occurrences d s, f (i + k) = g (j + k)) :
    replaceFrom d f i s = replaceFrom d g j s := by
  induction s using cut_induction hd generalizing i j with
  | none s hs => rw [replaceFrom_of_none f i hs, replaceFrom_of_none g j hs]
  | some s a b hs ih =>
    rw [occurrences_of_cut? hd hs] at h
    have hrest : replaceFrom d f (i + 1) b = replaceFrom d g (j + 1) b := by
      refine ih fun k hk => ?_
      have := h (k + 1) (by omega)
      rwa [Nat.add_assoc, Nat.add_assoc, Nat.add_comm 1 k]
    have hfirst : f i = g j := h 0 (by omega)
    rw [replaceFrom_of_cut? hd f i hs, replaceFrom_of_cut? hd g j hs, hfirst, hrest]

/-- Every occurrence replaced by itself. -/
theorem replaceFrom_self {d : List α} (hd : d ≠ []) {f : Nat → List α} {i : Nat} {s : List α}
    (h : ∀ k < occurrences d s, f (i + k) = d) : replaceFrom d f i s = s := by
  induction s using cut_induction hd generalizing i with
  | none s hs => exact replaceFrom_of_none f i hs
  | some s a b hs ih =>
    rw [occurrences_of_cut? hd hs] at h
    have hrest : replaceFrom d f (i + 1) b = b := by
      refine ih fun k hk => ?_
      have := h (k + 1) (by omega)
      rwa [Nat.add_assoc, Nat.add_comm 1 k]
    have hfirst : f i = d := h 0 (by omega)
    rw [replaceFrom_of_cut? hd f i hs, hfirst, hrest, ← eq_of_cut? hs]

/-- A text without a say stays as it is. -/
theorem Inert.replaceFrom_append {d x : List α} (hd : d ≠ []) (hx : Inert d x)
    (f : Nat → List α) (i : Nat) (s : List α) :
    replaceFrom d f i (x ++ s) = x ++ replaceFrom d f i s := by
  rcases hs : cut? d s with _ | ⟨a, b⟩
  · have hxs : cut? d (x ++ s) = none := by rw [hx, hs, Option.map_none]
    rw [replaceFrom_of_none f i hs, replaceFrom_of_none f i hxs]
  · have hxs : cut? d (x ++ s) = some (x ++ a, b) := by rw [hx, hs, Option.map_some]
    rw [replaceFrom_of_cut? hd f i hs, replaceFrom_of_cut? hd f i hxs, List.append_assoc]

/-- An element of no occurrence parts the text into two that are replaced on their own; the second
    goes on counting where the first has ended. -/
theorem replaceFrom_append_cons {d : List α} {c : α} (hd : d ≠ []) (hc : c ∉ d)
    (f : Nat → List α) (i : Nat) (x y : List α) :
    replaceFrom d f i (x ++ c :: y) =
      replaceFrom d f i x ++ c :: replaceFrom d f (i + occurrences d x) y := by
  induction x using cut_induction hd generalizing i with
  | none x hx =>
    have hinert : Inert d (x ++ [c]) := Inert.snoc hd hx hc
    have hsplit : x ++ c :: y = (x ++ [c]) ++ y := by simp
    rw [hsplit, hinert.replaceFrom_append hd, occurrences_of_none hx,
      replaceFrom_of_none f i hx]
    simp
  | some x a b hx ih =>
    rw [replaceFrom_of_cut? hd f i (cut?_append_of_cut? hx _), ih, replaceFrom_of_cut? hd f i hx,
      occurrences_of_cut? hd hx]
    simp only [List.append_assoc, Nat.add_assoc, Nat.add_comm 1]

/-- What the replaced text holds was there or came with a replacement. -/
theorem mem_replaceFrom {d : List α} (hd : d ≠ []) {f : Nat → List α} {i : Nat} {s : List α}
    {c : α} (h : c ∈ replaceFrom d f i s) : c ∈ s ∨ ∃ j, c ∈ f j := by
  induction s using cut_induction hd generalizing i with
  | none s hs =>
    rw [replaceFrom_of_none f i hs] at h
    exact .inl h
  | some s a b hs ih =>
    rw [replaceFrom_of_cut? hd f i hs, List.mem_append, List.mem_append] at h
    rw [eq_of_cut? hs, List.mem_append, List.mem_append]
    rcases h with ha | hf | hb
    · exact .inl (.inl ha)
    · exact .inr ⟨i, hf⟩
    · rcases ih hb with hb | hf
      · exact .inl (.inr (.inr hb))
      · exact .inr hf

/-- Removing elements of `f`'s texts and none of the text's own. -/
theorem filter_replaceFrom {d : List α} (hd : d ≠ []) (keep : α → Bool) (f : Nat → List α)
    (i : Nat) {s : List α} (hs : ∀ c ∈ s, keep c) :
    (replaceFrom d f i s).filter keep = replaceFrom d (fun j => (f j).filter keep) i s := by
  induction s using cut_induction hd generalizing i with
  | none s hnone =>
    rw [replaceFrom_of_none _ i hnone, replaceFrom_of_none _ i hnone,
      List.filter_eq_self.mpr hs]
  | some s a b hcut ih =>
    rw [eq_of_cut? hcut] at hs
    have ha : a.filter keep = a :=
      List.filter_eq_self.mpr fun c hc => hs c (List.mem_append_left _ hc)
    have hb : ∀ c ∈ b, keep c = true := fun c hc =>
      hs c (List.mem_append_right a (List.mem_append_right d hc))
    rw [replaceFrom_of_cut? hd _ i hcut, replaceFrom_of_cut? hd _ i hcut, List.filter_append,
      List.filter_append, ha, ih (i + 1) hb]

/-- Where an occurrence and what stands in its place come to the same, so do the texts. -/
theorem flatMap_replaceFrom {β : Type*} {d : List α} (hd : d ≠ []) {g : α → List β}
    {f : Nat → List α} (hf : ∀ j, (f j).flatMap g = d.flatMap g) (i : Nat) (s : List α) :
    (replaceFrom d f i s).flatMap g = s.flatMap g := by
  induction s using cut_induction hd generalizing i with
  | none s hs => rw [replaceFrom_of_none f i hs]
  | some s a b hs ih =>
    rw [replaceFrom_of_cut? hd f i hs, List.flatMap_append, List.flatMap_append, ih, hf,
      eq_of_cut? hs, List.flatMap_append, List.flatMap_append]

/-- The first `n` occurrences removed. -/
def remove (d : List α) (n : Nat) (s : List α) : List α :=
  replaceFrom d (fun i => if i < n then [] else d) 0 s

/-- All the occurrences removed. -/
def removeAll (d s : List α) : List α := replaceFrom d (fun _ => []) 0 s

/-- Removing a single element everywhere is filtering it out. -/
theorem removeAll_singleton (x : α) (s : List α) : removeAll [x] s = s.filter (· ≠ x) := by
  have hd : [x] ≠ [] := List.cons_ne_nil x []
  have hfilter : ∀ a, cut? [x] a = none → a.filter (· ≠ x) = a := by
    intro a ha
    refine List.filter_eq_self.mpr fun c hc => ?_
    have hne : c ≠ x := fun heq => cut?_singleton_eq_none.mp ha (heq ▸ hc)
    simpa using hne
  induction s using cut_induction hd with
  | none s hs => rw [removeAll, replaceFrom_of_none _ 0 hs, hfilter s hs]
  | some s a b hs ih =>
    have hrest : replaceFrom [x] (fun _ => []) 1 b = removeAll [x] b :=
      replaceFrom_congr hd fun _ _ => rfl
    rw [removeAll, replaceFrom_of_cut? hd _ 0 hs, hrest, ih, eq_of_cut? hs, List.filter_append,
      hfilter a (cut?_before hs)]
    simp

/-! ## Pairs of delimiters -/

/-- What stands in place of occurrence `i` of `m`: an opening and a closing mark by turns, and
    the delimiter itself where the last one has no partner. -/
def mark (d op cl : List α) (m i : Nat) : List α :=
  if i < 2 * (m / 2) then if i % 2 = 0 then op else cl else d

/-- The delimiters of every pair replaced by the marks. -/
def wrap (d op cl s : List α) : List α :=
  replaceFrom d (mark d op cl (occurrences d s)) 0 s

theorem wrap_of_none {d s : List α} (op cl : List α) (h : cut? d s = none) :
    wrap d op cl s = s :=
  replaceFrom_of_none _ 0 h

/-- A delimiter without a partner stays. -/
theorem wrap_of_one {d s a b : List α} (op cl : List α) (hd : d ≠ [])
    (h : cut? d s = some (a, b)) (hb : cut? d b = none) : wrap d op cl s = s := by
  refine replaceFrom_self hd fun k hk => ?_
  rw [occurrences_of_cut? hd h, occurrences_of_none hb] at *
  exact if_neg (by omega)

/-- **One pair at a time**: the first two delimiters become marks, and the rest is wrapped on its
    own.  The parity of an occurrence's number in the rest is the same as in the whole text. -/
theorem wrap_of_two {d s a b q r : List α} (op cl : List α) (hd : d ≠ [])
    (h : cut? d s = some (a, b)) (hb : cut? d b = some (q, r)) :
    wrap d op cl s = a ++ (op ++ (q ++ (cl ++ wrap d op cl r))) := by
  have hm : occurrences d s = occurrences d r + 2 := by
    rw [occurrences_of_cut? hd h, occurrences_of_cut? hd hb]
  have hrest : replaceFrom d (mark d op cl (occurrences d r + 2)) 2 r = wrap d op cl r := by
    refine replaceFrom_congr hd fun k _ => ?_
    have heven : (2 + k) % 2 = (0 + k) % 2 := by omega
    have hpaired : 2 + k < 2 * ((occurrences d r + 2) / 2) ↔
        0 + k < 2 * (occurrences d r / 2) := by omega
    rw [mark, mark, heven]
    simp only [hpaired]
  have hfirst : mark d op cl (occurrences d r + 2) 0 = op := by
    rw [mark, if_pos (by omega), if_pos rfl]
  have hsecond : mark d op cl (occurrences d r + 2) 1 = cl := by
    rw [mark, if_pos (by omega), if_neg (by decide)]
  rw [wrap, hm, replaceFrom_of_cut? hd _ 0 h, replaceFrom_of_cut? hd _ 1 hb, hrest, hfirst,
    hsecond]

/-- What the wrapped text holds was there or is of a mark. -/
theorem mem_wrap {d op cl s : List α} {c : α} (hd : d ≠ []) (h : c ∈ wrap d op cl s) :
    c ∈ s ∨ c ∈ op ∨ c ∈ cl ∨ c ∈ d := by
  rcases mem_replaceFrom hd h with hs | ⟨j, hj⟩
  · exact .inl hs
  · rw [mark] at hj
    -- a mark is `op` or `cl`, or the delimiter that has no partner
    split_ifs at hj
    · exact .inr (.inl hj)
    · exact .inr (.inr (.inl hj))
    · exact .inr (.inr (.inr hj))

/-- Delimiters and marks that come to nothing. -/
theorem flatMap_wrap {β : Type*} {d op cl : List α} (hd : d ≠ []) {g : α → List β}
    (hgd : d.flatMap g = []) (hop : op.flatMap g = []) (hcl : cl.flatMap g = []) (s : List α) :
    (wrap d op cl s).flatMap g = s.flatMap g := by
  refine flatMap_replaceFrom hd (fun j => ?_) 0 s
  rw [mark, hgd]
  split_ifs
  · exact hop
  · exact hcl
  · exact hgd

/-- A text without a say stays in front of the marks. -/
theorem Inert.wrap_append {d x : List α} (hd : d ≠ []) (hx : Inert d x) (op cl s : List α) :
    wrap d op cl (x ++ s) = x ++ wrap d op cl s := by
  rw [wrap, hx.occurrences_append hd, hx.replaceFrom_append hd, wrap]

/-- Marks that share no element with the delimiter make an inert text of a pair. -/
theorem inert_of_pair {d s a b q r op cl : List α} (hd : d ≠ []) (h : cut? d s = some (a, b))
    (hb : cut? d b = some (q, r)) (hop : op ≠ []) (hcl : cl ≠ []) (hopd : ∀ c ∈ op, c ∉ d)
    (hcld : ∀ c ∈ cl, c ∉ d) : Inert d (a ++ (op ++ (q ++ cl))) := by
  have ha : Inert d (a ++ op) := Inert.append_of_disjoint hd (cut?_before h) hop hopd
  have hq : Inert d (q ++ cl) := Inert.append_of_disjoint hd (cut?_before hb) hcl hcld
  simpa using ha.append hq

/-- The texts between every `op` and the next `cl`, or the next `op` or the end of the text where
    that comes first. -/
def spans (op cl s : List α) : List (List α) :=
  (splitBy op s).tail.map fun x => ((cut? cl x).map Prod.fst).getD x

theorem spans_of_none {op cl s : List α} (h : cut? op s = none) : spans op cl s = [] := by
  rw [spans, splitBy_of_none h]
  rfl

/-- A text without a say in front of the first opening mark is in no span. -/
theorem Inert.spans_append {op x : List α} (hop : op ≠ []) (hx : Inert op x) (cl s : List α) :
    spans op cl (x ++ s) = spans op cl s := by
  rw [spans, hx.splitBy_append hop, List.tail_modifyHead]
  rfl

/-- A span at the front is the first one, if neither mark has a say in it; the other spans are
    those of what comes after its closing mark. -/
theorem spans_of_span {op cl q : List α} (hop : op ≠ []) (hcl : cl ≠ []) (hq : Inert op (q ++ cl))
    (hqcl : Inert cl q) (s : List α) :
    spans op cl (op ++ (q ++ (cl ++ s))) = q :: spans op cl s := by
  obtain ⟨p, ps, hp⟩ := List.exists_cons_of_ne_nil (splitBy_ne_nil op s)
  -- the next opening mark is behind this span, so the first piece holds it whole
  have hsplit : splitBy op (q ++ (cl ++ s)) = (q ++ (cl ++ p)) :: ps := by
    rw [← List.append_assoc, hq.splitBy_append hop, hp]
    simp
  rw [spans, splitBy_of_cut? hop (cut?_front hop _), List.tail_cons, hsplit,
    List.map_cons, hqcl.cut?_delim hcl, spans, hp]
  rfl

/-- The texts between the delimiters of the pairs. -/
def enclosed (d s : List α) : List (List α) := seconds (splitBy d s)
where
  seconds : List (List α) → List (List α)
    | _ :: q :: p :: ps => q :: seconds (p :: ps)
    | _ => []

theorem enclosed_of_none {d s : List α} (h : cut? d s = none) : enclosed d s = [] := by
  rw [enclosed, splitBy_of_none h]
  rfl

theorem enclosed_of_one {d s a b : List α} (hd : d ≠ []) (h : cut? d s = some (a, b))
    (hb : cut? d b = none) : enclosed d s = [] := by
  rw [enclosed, splitBy_of_cut? hd h, splitBy_of_none hb]
  rfl

/-- The first pair encloses what is between its delimiters. -/
theorem enclosed_of_two {d s a b q r : List α} (hd : d ≠ []) (h : cut? d s = some (a, b))
    (hb : cut? d b = some (q, r)) : enclosed d s = q :: enclosed d r := by
  obtain ⟨p, ps, hp⟩ := List.exists_cons_of_ne_nil (splitBy_ne_nil d r)
  rw [enclosed, splitBy_of_cut? hd h, splitBy_of_cut? hd hb, enclosed, hp]
  rfl

/-- Of a wrapped text that had none of the marks, the marks' removal leaves the text without the
    delimiters of the pairs: wrapping takes nothing else and moves nothing. -/
theorem filter_wrap {d op cl s : List α} (hd : d ≠ []) (keep : α → Bool)
    (hop : op.filter keep = []) (hcl : cl.filter keep = []) (hkeepd : ∀ c ∈ d, keep c)
    (hs : ∀ c ∈ s, keep c) :
    (wrap d op cl s).filter keep = remove d (2 * (occurrences d s / 2)) s := by
  rw [wrap, filter_replaceFrom hd keep _ 0 hs, remove]
  refine replaceFrom_congr hd fun k _ => ?_
  rw [mark]
  split_ifs
  · exact hop
  · exact hcl
  · exact List.filter_eq_self.mpr hkeepd

/-! ## Texts and their spellings -/

variable {β : Type*} [DecidableEq β]

/-- Every element spelled by `g`, an occurrence of `d` is an occurrence of its spelling, and
    there are no others. -/
def Spells (g : α → List β) (d : List α) : Prop :=
  ∀ s, cut? (d.flatMap g) (s.flatMap g) =
    (cut? d s).map fun p => (p.1.flatMap g, p.2.flatMap g)

omit [DecidableEq α] [DecidableEq β] in
/-- Where the elements of `d` are spelled by letters of their own, the spelling of `d` is at the
    front of a spelled text only if `d` is. -/
theorem prefix_of_spelled {g : α → List β} {d s : List α} (e : α → β)
    (hne : ∀ c, g c ≠ []) (hletter : ∀ x ∈ d, g x = [e x])
    (honly : ∀ x ∈ d, ∀ c, e x ∈ g c → c = x) (h : d.flatMap g <+: s.flatMap g) : d <+: s := by
  induction d generalizing s with
  | nil => exact List.nil_prefix
  | cons x d ih =>
    have hx : g x = [e x] := hletter x List.mem_cons_self
    rw [List.flatMap_cons, hx] at h
    cases s with
    | nil => cases List.prefix_nil.mp h
    | cons c s =>
      obtain ⟨y, ys, hy⟩ := List.exists_cons_of_ne_nil (hne c)
      rw [List.flatMap_cons, hy] at h
      have hfirst : e x = y := (List.cons_prefix_cons.mp h).1
      have hmem : e x ∈ g c := by
        rw [hy, hfirst]
        exact List.mem_cons_self
      have hcx : c = x := honly x List.mem_cons_self c hmem
      subst hcx
      obtain ⟨rfl, rfl⟩ := List.cons.inj (hy.symm.trans hx)
      refine List.cons_prefix_cons.mpr ⟨rfl, ih ?_ ?_ (List.cons_prefix_cons.mp h).2⟩
      · exact fun z hz => hletter z (List.mem_cons_of_mem c hz)
      · exact fun z hz => honly z (List.mem_cons_of_mem c hz)

/-- It is enough that the elements of `d` are spelled by letters of their own. -/
theorem Spells.of_letters {g : α → List β} {d : List α} (e : α → β) (hd : d ≠ [])
    (hne : ∀ c, g c ≠ []) (hletter : ∀ x ∈ d, g x = [e x])
    (honly : ∀ x ∈ d, ∀ c, e x ∈ g c → c = x) : Spells g d := by
  have hgd : d.flatMap g ≠ [] := by
    obtain ⟨x, d, rfl⟩ := List.exists_cons_of_ne_nil hd
    rw [List.flatMap_cons, hletter x List.mem_cons_self]
    exact List.cons_ne_nil _ _
  intro s
  induction s with
  | nil => rfl
  | cons c s ih =>
    by_cases hpre : d <+: c :: s
    · -- an occurrence at the front is spelled at the front
      obtain ⟨r, hr⟩ := hpre
      rw [← hr, List.flatMap_append, cut?_front hgd, cut?_front hd]
      rfl
    · -- none at the front: there is none in the spelling either
      have hnot : ¬ d.flatMap g <+: g c ++ s.flatMap g := by
        rw [← List.flatMap_cons]
        exact fun hlong => hpre (prefix_of_spelled e hne hletter honly hlong)
      rw [cut?_cons hpre, List.flatMap_cons, Option.map_map]
      by_cases hc : c ∈ d
      · -- `c` is an element of `d`, spelled by one letter
        rw [hletter c hc] at hnot ⊢
        rw [List.singleton_append] at hnot ⊢
        rw [cut?_cons hnot, ih, Option.map_map]
        refine congrArg (fun h => Option.map h _) (funext fun p => ?_)
        simp [hletter c hc]
      · -- the spelling of `c` holds no letter of `d`
        have hinert : Inert (d.flatMap g) (g c) := by
          refine Inert.of_disjoint hgd fun y hy hyd => hc ?_
          obtain ⟨x, hx, hyx⟩ := List.mem_flatMap.mp hyd
          rw [hletter x hx, List.mem_singleton] at hyx
          subst hyx
          exact honly x hx c hy ▸ hx
        rw [hinert, ih, Option.map_map]
        refine congrArg (fun h => Option.map h _) (funext fun p => ?_)
        simp

/-- It is enough for a single element that no other spelling has a say in its own. -/
theorem Spells.of_inert {g : α → List β} {x : α} (hx : g x ≠ [])
    (h : ∀ c, c ≠ x → Inert (g x) (g c)) : Spells g [x] := by
  intro s
  rw [List.flatMap_singleton]
  induction s with
  | nil => rfl
  | cons c s ih =>
    by_cases hc : c = x
    · subst hc
      rw [List.flatMap_cons, cut?_front hx, show c :: s = [c] ++ s from rfl,
        cut?_front (List.cons_ne_nil c [])]
      rfl
    · -- another element's spelling is skipped as a whole
      have hnot : ¬ [x] <+: c :: s := by
        rintro ⟨r, hr⟩
        exact hc (List.cons.inj hr).1.symm
      rw [List.flatMap_cons, h c hc, ih, cut?_cons hnot, Option.map_map,
        Option.map_map]
      refine congrArg (fun h => Option.map h _) (funext fun p => ?_)
      simp

/-- What takes the place of the occurrences is spelled likewise. -/
theorem Spells.replaceFrom {g : α → List β} {d : List α} (h : Spells g d) (hd : d ≠ [])
    (hgd : d.flatMap g ≠ []) (f : Nat → List α) (i : Nat) (s : List α) :
    replaceFrom (d.flatMap g) (fun j => (f j).flatMap g) i (s.flatMap g) =
      (Delim.replaceFrom d f i s).flatMap g := by
  induction s using cut_induction hd generalizing i with
  | none s hs =>
    rw [replaceFrom_of_none _ i (by rw [h, hs, Option.map_none]), replaceFrom_of_none f i hs]
  | some s a b hs ih =>
    rw [replaceFrom_of_cut? hgd _ i (by rw [h, hs, Option.map_some]), ih,
      replaceFrom_of_cut? hd f i hs, List.flatMap_append, List.flatMap_append]

/-- There are as many occurrences in the spelling. -/
theorem Spells.occurrences {g : α → List β} {d : List α} (h : Spells g d) (hd : d ≠ [])
    (hgd : d.flatMap g ≠ []) (s : List α) :
    occurrences (d.flatMap g) (s.flatMap g) = Delim.occurrences d s := by
  induction s using cut_induction hd with
  | none s hs =>
    rw [occurrences_of_none (by rw [h, hs, Option.map_none]), occurrences_of_none hs]
  | some s a b hs ih =>
    rw [occurrences_of_cut? hgd (by rw [h, hs, Option.map_some]), ih, occurrences_of_cut? hd hs]

/-- Marking the pairs in the spelling is marking them in the text. -/
theorem Spells.wrap {g : α → List β} {d : List α} (h : Spells g d) (hd : d ≠ [])
    (hgd : d.flatMap g ≠ []) (op cl s : List α) :
    wrap (d.flatMap g) (op.flatMap g) (cl.flatMap g) (s.flatMap g) =
      (Delim.wrap d op cl s).flatMap g := by
  rw [Delim.wrap, Delim.wrap, ← h.replaceFrom hd hgd, h.occurrences hd hgd]
  refine replaceFrom_congr hgd fun k _ => ?_
  rw [mark, mark]
  split_ifs <;> rfl

/-- So is removing the first `n` occurrences. -/
theorem Spells.remove {g : α → List β} {d : List α} (h : Spells g d) (hd : d ≠ [])
    (hgd : d.flatMap g ≠ []) (n : Nat) (s : List α) :
    remove (d.flatMap g) n (s.flatMap g) = (Delim.remove d n s).flatMap g := by
  rw [Delim.remove, Delim.remove, ← h.replaceFrom hd hgd]
  refine replaceFrom_congr hgd fun k _ => ?_
  split_ifs <;> rfl

theorem Spells.removeAll {g : α → List β} {d : List α} (h : Spells g d) (hd : d ≠ [])
    (hgd : d.flatMap g ≠ []) (s : List α) :
    removeAll (d.flatMap g) (s.flatMap g) = (Delim.removeAll d s).flatMap g := by
  rw [Delim.removeAll, Delim.removeAll, ← h.replaceFrom hd hgd]
  exact replaceFrom_congr hgd fun _ _ => rfl

/-- The pieces of the spelling are the spellings of the pieces. -/
theorem Spells.splitBy {g : α → List β} {d : List α} (h : Spells g d) (hd : d ≠ [])
    (hgd : d.flatMap g ≠ []) (s : List α) :
    splitBy (d.flatMap g) (s.flatMap g) = (Delim.splitBy d s).map (·.flatMap g) := by
  induction s using cut_induction hd with
  | none s hs =>
    rw [splitBy_of_none (by rw [h, hs, Option.map_none]), splitBy_of_none hs]
    rfl
  | some s a b hs ih =>
    rw [splitBy_of_cut? hgd (by rw [h, hs, Option.map_some]), ih, splitBy_of_cut? hd hs]
    rfl

/-- The spans of the spelling are the spellings of the spans: the marks have to be spelled so that
    both can be found. -/
theorem Spells.spans {g : α → List β} {op cl : List α} (hop : Spells g op) (hcl : Spells g cl)
    (hne : op ≠ []) (hgne : op.flatMap g ≠ []) (s : List α) :
    spans (op.flatMap g) (cl.flatMap g) (s.flatMap g) =
      (Delim.spans op cl s).map (·.flatMap g) := by
  rw [Delim.spans, Delim.spans, hop.splitBy hne hgne, ← List.map_tail, List.map_map,
    List.map_map]
  -- a span ends at the closing mark, which is found in the spelling too
  refine List.map_congr_left fun x _ => ?_
  rw [Function.comp_apply, hcl x, Function.comp_apply]
  cases cut? cl x <;> rfl

end Delim
