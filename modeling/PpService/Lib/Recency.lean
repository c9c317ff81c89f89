/-
  THE ORDER OF USE of a bounded least-recently-used map, as a library.

  The keys of such a map are a list, the last used first.  Using `k` moves it to the front
  (`touch`); a `put` also cuts the list at the capacity.  So the keys after a history of uses
  are the distinct keys of the history, the latest first, up to the capacity (`uses_eq`,
  `take_uses_take`), and a key is among them if fewer than `cap` others have been used since
  (`mem_take_reverse_dedup_iff`).

  Two more things follow from the order:

  * `UsedAfter T k` — while only keys of `T` are used, `k` cannot leave a map that has room for
    all of `T`;
  * `Within`        — of two maps used alike, the smaller one keeps a part of what the larger
    one keeps, in the same order.

  The proofs are about lists: `touch` is `List.erase` and `cons`, and what a history of touches
  comes to is its `dedup`, reversed.  The cut of a `put` may be made at every step or
  once at the end (`take_uses_take`), because a key that is cut off stays behind all keys that
  are used after it.
-/
import Mathlib.Data.List.Dedup
import Mathlib.Data.Set.Card
import PpService.Lib.Lru

namespace Recency

variable {κ : Type} [DecidableEq κ]

/-! ## Uses -/

/-- Use `k`: it moves to the front. -/
def touch (k : κ) (l : List κ) : List κ := k :: l.erase k

/-- Use the keys of a history, from left to right. -/
def uses (history l : List κ) : List κ := history.foldl (fun l k => touch k l) l

/-- A use adds the key it uses and no other. -/
theorem mem_touch {k k' : κ} {l : List κ} : k' ∈ touch k l ↔ k' = k ∨ k' ∈ l := by
  rw [touch, List.mem_cons]
  by_cases hk : k' = k
  · simp [hk]
  · rw [List.mem_erase_of_ne hk]

/-- The key used is taken out before it is put in front. -/
theorem nodup_touch {k : κ} {l : List κ} (h : l.Nodup) : (touch k l).Nodup :=
  List.nodup_cons.mpr ⟨h.not_mem_erase, h.erase k⟩

/-- A use of a key that is there leaves the length. -/
theorem length_touch_of_mem {k : κ} {l : List κ} (h : k ∈ l) :
    (touch k l).length = l.length := by
  have hpos : 0 < l.length := List.length_pos_of_mem h
  rw [touch, List.length_cons, List.length_erase_of_mem h]
  omega

theorem touch_of_not_mem {k : κ} {l : List κ} (h : k ∉ l) : touch k l = k :: l := by
  rw [touch, List.erase_of_not_mem h]

/-- After a history the keys are those of before and those of the history. -/
theorem mem_uses {k : κ} {history l : List κ} : k ∈ uses history l ↔ k ∈ history ∨ k ∈ l := by
  induction history generalizing l with
  | nil => simp [uses]
  | cons k' history ih =>
    show k ∈ uses history (touch k' l) ↔ _
    rw [ih, mem_touch, List.mem_cons]
    tauto

/-- Distinct keys stay distinct. -/
theorem nodup_uses (history : List κ) {l : List κ} (h : l.Nodup) : (uses history l).Nodup := by
  induction history generalizing l with
  | nil => exact h
  | cons k history ih => exact ih (nodup_touch h)

/-- What is cut off before a use is cut off after it. -/
theorem take_touch_take (k : κ) (l : List κ) (n : Nat) :
    (touch k (l.take n)).take n = (touch k l).take n := by
  cases n with
  | zero => rfl
  | succ n =>
    rw [touch, touch, List.take_succ_cons, List.take_succ_cons]
    congr 1
    -- only a list longer than the cut is cut at all
    by_cases hshort : l.length ≤ n + 1
    · rw [List.take_of_length_le hshort]
    · have hlen : (l.take (n + 1)).length = n + 1 := by rw [List.length_take]; omega
      conv_rhs => rw [← List.take_append_drop (n + 1) l, List.erase_append]
      -- `k` is erased before the cut, or it is not before the cut
      split_ifs with hk
      · have herase : n ≤ ((l.take (n + 1)).erase k).length := by
          rw [List.length_erase_of_mem hk, hlen]
          omega
        rw [List.take_append_of_le_length herase]
      · rw [List.erase_of_not_mem hk, List.take_append_of_le_length (by omega)]

/-- What is cut off before a history is cut off after it; so a map of bounded size may be followed
    as an unbounded one, and cut at the end. -/
theorem take_uses_take (history l : List κ) (n : Nat) :
    (uses history (l.take n)).take n = (uses history l).take n := by
  induction history generalizing l with
  | nil => exact List.take_take.trans (by rw [Nat.min_self]; rfl)
  | cons k history ih =>
    show (uses history (touch k (l.take n))).take n = (uses history (touch k l)).take n
    rw [← ih, take_touch_take, ih]

/-- The distinct keys of the history, the latest first, then the older ones. -/
theorem uses_eq (history : List κ) {l : List κ} (hl : l.Nodup) :
    uses history l = history.dedup.reverse ++ l.filter (· ∉ history) := by
  induction history generalizing l with
  | nil => simp [uses]
  | cons k history ih =>
    have hstep : uses (k :: history) l = uses history (touch k l) := rfl
    have herase : ∀ P : κ → Bool, P k = false → (l.erase k).filter P = l.filter P := by
      intro P hP
      rw [hl.erase_eq_filter, List.filter_filter]
      refine List.filter_congr fun x _ => ?_
      by_cases hx : x = k
      · simp [hx, hP]
      · simp [hx]
    rw [hstep, ih (nodup_touch hl), touch]
    -- used again later, `k` stands where the later use puts it
    by_cases hk : k ∈ history
    · rw [List.dedup_cons_of_mem hk, List.filter_cons_of_neg (by simpa using hk),
        herase _ (by simpa using hk)]
      congr 1
      refine List.filter_congr fun x _ => ?_
      by_cases hx : x = k
      · simp [hx, hk]
      · simp [hx]
    · have hfilter : (l.erase k).filter (· ∉ history) = l.filter (· ∉ k :: history) := by
        rw [hl.erase_eq_filter, List.filter_filter]
        refine List.filter_congr fun x _ => ?_
        by_cases hx : x = k
        · simp [hx]
        · simp [hx]
      rw [List.dedup_cons_of_notMem hk, List.filter_cons_of_pos (by simpa using hk), hfilter,
        List.reverse_cons, List.append_assoc]
      rfl

/-- The last use of `k` splits the history; what was used since stands before `k`. -/
theorem reverse_dedup_append (before : List κ) {after : List κ} {k : κ} (h : k ∉ after) :
    ∃ older, (before ++ k :: after).dedup.reverse = after.dedup.reverse ++ k :: older := by
  have hsuffix : (k :: after).dedup <:+ (before ++ k :: after).dedup := by
    rw [List.dedup_append]
    exact List.suffix_union_right _ _
  obtain ⟨older, holder⟩ := hsuffix
  refine ⟨older.reverse, ?_⟩
  rw [← holder, List.dedup_cons_of_notMem h]
  simp

/-- A key is among the `n` last used if fewer than `n` others have been used since. -/
theorem mem_take_reverse_dedup_iff {history : List κ} {k : κ} {n : Nat} :
    k ∈ history.dedup.reverse.take n ↔
      ∃ before after, history = before ++ k :: after ∧ k ∉ after ∧ after.dedup.length < n := by
  constructor
  · -- from the place of `k` to the last use of it
    intro hmem
    have hk : k ∈ history.reverse := by simpa using List.mem_of_mem_take hmem
    obtain ⟨after, before, hsplit, hafter⟩ := List.eq_append_cons_of_mem hk
    have hhistory : history = before.reverse ++ k :: after.reverse := by
      rw [← List.reverse_reverse history, hsplit]
      simp
    have hnot : k ∉ after.reverse := by simpa using hafter
    refine ⟨before.reverse, after.reverse, hhistory, hnot, ?_⟩
    obtain ⟨older, holder⟩ := reverse_dedup_append before.reverse hnot
    rw [hhistory, holder] at hmem
    -- with `n` others used since, the cut comes before `k`
    by_contra hlarge
    rw [List.take_append_of_le_length (by simpa using hlarge)] at hmem
    exact hnot (by simpa using List.mem_of_mem_take hmem)
  · -- from the last use of `k` to its place, which is behind the others
    rintro ⟨before, after, rfl, hnot, hlt⟩
    obtain ⟨older, holder⟩ := reverse_dedup_append before hnot
    have hpos : after.dedup.reverse.length < n := by simpa using hlt
    rw [holder, List.take_append]
    obtain ⟨m, hm⟩ : ∃ m, n - after.dedup.reverse.length = m + 1 :=
      ⟨n - after.dedup.reverse.length - 1, by omega⟩
    rw [hm, List.take_succ_cons]
    simp

/-- Two histories of the same keys leave the same keys, where there is room for all of them. -/
theorem perm_take_uses {history history' l : List κ} (hl : l.Nodup)
    (hsame : ∀ k, k ∈ history ↔ k ∈ history') {n : Nat} (hroom : history.dedup.length ≤ n) :
    ((uses history l).take n).Perm ((uses history' l).take n) := by
  have hdedup : history.dedup.Perm history'.dedup := by
    rw [List.perm_ext_iff_of_nodup history.nodup_dedup history'.nodup_dedup]
    simpa using hsame
  have hold : l.filter (· ∉ history) = l.filter (· ∉ history') :=
    List.filter_congr fun k _ => by simp [hsame k]
  have hrev : history.dedup.reverse.Perm history'.dedup.reverse :=
    ((List.reverse_perm _).trans hdedup).trans (List.reverse_perm _).symm
  have htake : ∀ {distinct older : List κ}, distinct.length ≤ n →
      (distinct ++ older).take n = distinct ++ older.take (n - distinct.length) := by
    intro distinct older h
    rw [List.take_append, List.take_of_length_le h]
  rw [uses_eq _ hl, uses_eq _ hl, hold, htake (by simpa using hroom),
    htake (by rw [← hrev.length_eq]; simpa using hroom), hrev.length_eq]
  exact hrev.append_right _

/-! ## What cannot leave -/

/-- Since `k` was used, only keys of `T` have been. -/
def UsedAfter (T : Set κ) (k : κ) (l : List κ) : Prop :=
  ∃ newer older, l = newer ++ k :: older ∧ ∀ k' ∈ newer, k' ∈ T

variable {T : Set κ} {k k' : κ} {l : List κ}

omit [DecidableEq κ] in
theorem UsedAfter.mem (h : UsedAfter T k l) : k ∈ l := by
  obtain ⟨newer, older, rfl, -⟩ := h
  simp

theorem UsedAfter.self (T : Set κ) (k : κ) (l : List κ) : UsedAfter T k (touch k l) :=
  ⟨[], l.erase k, rfl, by simp⟩

/-- A use of a key of `T` puts that key before `k`, or `k` itself in front. -/
theorem UsedAfter.touch (h : UsedAfter T k l) (hk' : k' ∈ T) : UsedAfter T k (touch k' l) := by
  obtain ⟨newer, older, rfl, hnewer⟩ := h
  by_cases heq : k' = k
  · rw [heq]
    exact UsedAfter.self T k _
  · have hcons : ∀ x ∈ k' :: newer.erase k', x ∈ T := by
      intro x hx
      rcases List.mem_cons.mp hx with rfl | hx
      · exact hk'
      · exact hnewer x (List.mem_of_mem_erase hx)
    rw [Recency.touch, List.erase_append]
    split_ifs with hmem
    · -- it was among the newer ones already
      exact ⟨k' :: newer.erase k', older, rfl, hcons⟩
    · -- it was older than `k`, or not there
      refine ⟨k' :: newer, older.erase k', ?_, ?_⟩
      · rw [List.erase_cons_tail (by simpa using Ne.symm heq)]
        rfl
      · rwa [List.erase_of_not_mem hmem] at hcons

/-- So does a history of such uses. -/
theorem UsedAfter.uses (h : UsedAfter T k l) {history : List κ} (hall : ∀ k' ∈ history, k' ∈ T) :
    UsedAfter T k (uses history l) := by
  induction history generalizing l with
  | nil => exact h
  | cons k' history ih =>
    exact ih (h.touch (hall k' List.mem_cons_self)) fun x hx => hall x (List.mem_cons_of_mem _ hx)

/-- Distinct keys of `T` are no more than `T` has. -/
theorem length_le_encard (hl : l.Nodup) (hT : ∀ x ∈ l, x ∈ T) :
    (l.length : ℕ∞) ≤ T.encard := by
  have hsub : (l.toFinset : Set κ) ⊆ T := by
    intro x hx
    exact hT x (by simpa using hx)
  calc (l.length : ℕ∞) = (l.toFinset : Set κ).encard := by
        rw [Set.encard_coe_eq_coe_finsetCard, List.toFinset_card_of_nodup hl]
    _ ≤ T.encard := Set.encard_le_encard hsub

/-- Where there is room for all of `T`, the cut comes after `k`. -/
theorem UsedAfter.take (h : UsedAfter T k l) (hl : l.Nodup) (hk : k ∈ T) {n : Nat}
    (hroom : T.encard ≤ n) : UsedAfter T k (l.take n) := by
  obtain ⟨newer, older, rfl, hnewer⟩ := h
  have hnodup : (newer ++ [k]).Nodup := by
    refine hl.sublist ?_
    simp
  have hall : ∀ x ∈ newer ++ [k], x ∈ T := by
    intro x hx
    rcases List.mem_append.mp hx with hx | hx
    · exact hnewer x hx
    · rwa [List.mem_singleton.mp hx]
  -- `k` and what is before it are distinct keys of `T`, and the cut leaves room for them
  have hlen : newer.length + 1 ≤ n := by
    have hle := (length_le_encard hnodup hall).trans hroom
    simpa using Nat.cast_le.mp hle
  obtain ⟨m, rfl⟩ : ∃ m, n = newer.length + (m + 1) := ⟨n - newer.length - 1, by omega⟩
  refine ⟨newer, older.take m, ?_, hnewer⟩
  rw [List.take_length_add_append, List.take_succ_cons]

omit [DecidableEq κ] in
/-- If `k` is the least recently used key, all keys are of `T`. -/
theorem UsedAfter.all_of_last (h : UsedAfter T k l) (hl : l.Nodup) (hk : k ∈ T) {init : List κ}
    (hlast : l = init ++ [k]) : ∀ x ∈ l, x ∈ T := by
  obtain ⟨newer, older, hsplit, hnewer⟩ := h
  have hinit : init = newer := by
    rw [hlast] at hl hsplit
    have hnot : k ∉ init := by
      intro hmem
      rw [List.nodup_append] at hl
      exact hl.2.2 k hmem k List.mem_cons_self rfl
    exact ((List.append_cons_inj_of_notMem hnot List.not_mem_nil).mp hsplit).1
  intro x hx
  rw [hlast, hinit, List.mem_append, List.mem_singleton] at hx
  rcases hx with hx | rfl
  · exact hnewer x hx
  · exact hk

/-! ## Two capacities -/

/-- The keys `small` of a map of capacity `s` beside the keys `big` of a larger one: the smaller
    map keeps its keys in the order of the larger one, and keeps fewer only when it is full. -/
structure Within (s : Nat) (small big : List κ) : Prop where
  sublist : small.Sublist big
  full : s ≤ small.length ∨ small = big

omit [DecidableEq κ] in
/-- Without their last elements, a sublist is one of the rest. -/
theorem Sublist.dropLast {l₁ l₂ : List κ} (h : l₁.Sublist l₂) :
    l₁.dropLast.Sublist l₂.dropLast := by
  rw [← List.reverse_sublist, ← List.tail_reverse, ← List.tail_reverse]
  exact (List.reverse_sublist.mpr h).tail

variable {s S : Nat} {small big : List κ}

/-- The smaller map uses `k`, which both hold. -/
theorem Within.hit (h : Within s small big) (hk : k ∈ small) :
    Within s (Recency.touch k small) (Recency.touch k big) := by
  refine ⟨List.cons_sublist_cons.mpr (h.sublist.erase k), ?_⟩
  rcases h.full with hfull | heq
  · left
    rwa [length_touch_of_mem hk]
  · right
    rw [heq]

/-- Only the larger map holds `k`, and only the larger map uses it. -/
theorem Within.hit_big (h : Within s small big) (hk : k ∉ small) (hk' : k ∈ big) :
    Within s small (Recency.touch k big) := by
  have herase : small.Sublist (big.erase k) := by
    have hsub := h.sublist.erase k
    rwa [List.erase_of_not_mem hk] at hsub
  refine ⟨herase.cons k, ?_⟩
  rcases h.full with hfull | heq
  · -- the smaller map is full, as before
    exact Or.inl hfull
  · -- as long as both hold the same keys there is no such `k`
    exact absurd (heq ▸ hk') hk

/-- The smaller map stores `k`, which only the larger one holds. -/
theorem Within.put_hit (h : Within s small big) (hs : small.length ≤ s) (hk : k ∉ small)
    (hk' : k ∈ big) : Within s ((Recency.touch k small).take s) (Recency.touch k big) := by
  have hgrown := h.hit_big hk hk'
  rcases h.full with hfull | heq
  · have herase : small.Sublist (big.erase k) := by
      have hsub := h.sublist.erase k
      rwa [List.erase_of_not_mem hk] at hsub
    refine ⟨?_, ?_⟩
    · rw [touch_of_not_mem hk]
      exact (List.take_sublist s _).trans (List.cons_sublist_cons.mpr herase)
    · left
      rw [touch_of_not_mem hk, List.length_take, List.length_cons]
      omega
  · exact absurd (heq ▸ hk') hk

/-- Both maps store `k`, which neither holds. -/
theorem Within.put (h : Within s small big) (hpos : 0 < s) (hs : small.length ≤ s) (hsS : s ≤ S)
    (hS : big.length ≤ S) (hk : k ∉ big) :
    Within s ((Recency.touch k small).take s) ((Recency.touch k big).take S) := by
  have hk' : k ∉ small := fun hmem => hk (h.sublist.subset hmem)
  rw [touch_of_not_mem hk, touch_of_not_mem hk']
  obtain ⟨s, rfl⟩ : ∃ n, s = n + 1 := ⟨s - 1, by omega⟩
  obtain ⟨S, rfl⟩ : ∃ n, S = n + 1 := ⟨S - 1, by omega⟩
  rw [List.take_succ_cons, List.take_succ_cons]
  rcases h.full with hfull | heq
  · -- the smaller map is full and drops its last key
    refine ⟨List.cons_sublist_cons.mpr ?_, ?_⟩
    · have hsmall : small.take s = small.dropLast := by
        rw [List.dropLast_eq_take]
        congr 1
        omega
      rw [hsmall]
      -- the larger one drops its own last key or none
      by_cases hlong : big.length ≤ S
      · rw [List.take_of_length_le hlong]
        exact (List.dropLast_sublist small).trans h.sublist
      · have hbig : big.take S = big.dropLast := by
          rw [List.dropLast_eq_take]
          congr 1
          omega
        rw [hbig]
        exact Sublist.dropLast h.sublist
    · left
      rw [List.length_cons, List.length_take]
      omega
  · subst heq
    refine ⟨List.cons_sublist_cons.mpr (List.take_sublist_take_left (by omega)), ?_⟩
    -- both still hold the same keys, or this is what fills the smaller one
    by_cases hshort : small.length ≤ s
    · right
      rw [List.take_of_length_le hshort, List.take_of_length_le (by omega)]
    · left
      rw [List.length_cons, List.length_take]
      omega

end Recency

/-! ## The keys of the map -/

namespace LruMap

open Recency (touch)

variable {κ α : Type} [DecidableEq κ]

/-- The keys, the last used first. -/
def keys (m : LruMap κ α) : List κ := m.items.keys

omit [DecidableEq κ] in
theorem nodup_keys (m : LruMap κ α) : m.keys.Nodup := m.items.keys_nodup

omit [DecidableEq κ] in
theorem length_keys_le (m : LruMap κ α) : m.keys.length ≤ m.cap := m.size_le

omit [DecidableEq κ] in
/-- A new map has no keys. -/
@[simp] theorem keys_empty (cap : Nat) (h : 0 < cap) : (empty cap h : LruMap κ α).keys = [] := rfl

theorem mem_keys {m : LruMap κ α} {k : κ} : k ∈ m.keys ↔ (m.lookup k).isSome :=
  AList.mem_keys.symm.trans mem_items_iff

/-- A `get` that hits is a use. -/
theorem keys_get_of_mem {m : LruMap κ α} {k : κ} (h : k ∈ m.keys) :
    (m.get k).2.keys = touch k m.keys := by
  obtain ⟨v, hv⟩ := Option.isSome_iff_exists.mp (mem_keys.mp h)
  show (m.front k).keys = touch k m.items.keys
  have hlookup : m.items.lookup k = some v := hv
  rw [front, hlookup]
  exact AList.keys_insert ..

theorem keys_get_of_not_mem {m : LruMap κ α} {k : κ} (h : k ∉ m.keys) :
    (m.get k).2.keys = m.keys := by
  rw [mem_keys, Option.not_isSome_iff_eq_none] at h
  rw [get_of_none h]

/-- The victim of a `put` is the key that was used least recently. -/
theorem victim_eq_some {m : LruMap κ α} {k k₀ : κ} (h : m.victim k = some k₀) :
    k ∉ m.keys ∧ m.cap ≤ m.keys.length ∧ m.keys = m.keys.dropLast ++ [k₀] := by
  unfold victim at h
  split at h
  · nomatch h
  · rename_i hfull
    push Not at hfull
    refine ⟨fun hk => hfull.1 (AList.mem_keys.mpr hk), hfull.2, ?_⟩
    exact (List.dropLast_append_getLast? k₀ h).symm

/-- A `put` is a use, cut at the capacity. -/
theorem keys_put (m : LruMap κ α) (k : κ) (v : α) :
    (m.put k v).keys = (touch k m.keys).take m.cap := by
  have hput : (m.put k v).keys = touch k (m.kept k).keys := AList.keys_insert ..
  have hle : (touch k (m.kept k).keys).length ≤ m.cap := by
    rw [← hput]
    exact (m.put k v).length_keys_le
  rw [hput]
  cases hv : m.victim k with
  | none =>
    have hkept : (m.kept k).keys = m.keys := by rw [kept, hv]; rfl
    rw [hkept] at hle ⊢
    rw [List.take_of_length_le hle]
  | some k₀ =>
    obtain ⟨hk, hfull, hlast⟩ := victim_eq_some hv
    have hk₀ : k₀ ∉ m.keys.dropLast := by
      have hnodup := m.nodup_keys
      rw [hlast, List.nodup_append] at hnodup
      intro hmem
      exact hnodup.2.2 k₀ hmem k₀ (List.mem_singleton_self k₀) rfl
    have hkept : (m.kept k).keys = m.keys.dropLast := by
      have herase : (m.kept k).keys = m.keys.erase k₀ := by rw [kept, hv]; exact AList.keys_erase ..
      rw [herase]
      conv_lhs => rw [hlast, List.erase_append_right _ hk₀]
      simp
    have hpos := m.cap_pos
    have hcap := m.length_keys_le
    have hk' : k ∉ m.keys.dropLast := fun hmem => hk (List.mem_of_mem_dropLast hmem)
    obtain ⟨n, hn⟩ : ∃ n, m.cap = n + 1 := ⟨m.cap - 1, by omega⟩
    rw [hkept, Recency.touch_of_not_mem hk', Recency.touch_of_not_mem hk, hn, List.take_succ_cons,
      List.dropLast_eq_take]
    congr 2
    omega

end LruMap
