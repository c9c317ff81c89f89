/-
  A BOUNDED LEAST-RECENTLY-USED MAP, as a library.

  An `LruMap κ α` holds at most `cap` entries, most recently used first, one per key.  The two
  facts every user needs, distinct keys and the bound, are fields: the first comes with
  `AList`, the second is `size_le`, so a state that breaks them cannot be built.

  * `get k` answers what is stored under `k` and, on a hit, moves that entry to the front;
  * `put k v` stores `v` under `k` at the front; a full map that does not hold `k` first
    drops its last entry, `victim k`.

  What a proof about a user of the map needs is how the two operations change `lookup`, the
  map as a partial function: `get` does not change it at all (`lookup_get`), and `put k v`
  changes it at `k` and at `victim k` only (`lookup_put_self`, `lookup_put_ne`).  A property of
  all entries (`AllEntries`) is kept by both (`AllEntries.get`, `AllEntries.put`).

  The entries are an association list with distinct keys, the most recently used in front, so
  "the last entry" is the one used last longest ago, and dropping it is all that eviction is.
-/
import Mathlib.Data.List.AList

/-- A map of at most `cap` entries, most recently used first. -/
structure LruMap (κ α : Type) where
  /-- The capacity. -/
  cap : Nat
  cap_pos : 0 < cap
  /-- The entries, the most recently used one at the head. -/
  items : AList (fun _ : κ => α)
  size_le : items.keys.length ≤ cap

namespace LruMap

variable {κ α : Type}

/-- The map without entries. -/
def empty (cap : Nat) (h : 0 < cap) : LruMap κ α :=
  ⟨cap, h, ∅, by simp⟩

/-- The number of entries. -/
def len (m : LruMap κ α) : Nat := m.items.keys.length

theorem len_le_cap (m : LruMap κ α) : m.len ≤ m.cap := m.size_le

variable [DecidableEq κ]

/-- What is stored under `k`, without touching the order of use. -/
def lookup (m : LruMap κ α) (k : κ) : Option α := m.items.lookup k

/-- The key a `put k` drops: the least recently used one, when the map is full and does not
    hold `k`. -/
def victim (m : LruMap κ α) (k : κ) : Option κ :=
  if k ∈ m.items ∨ m.len < m.cap then none else m.items.keys.getLast?

/-- Moving an entry to the front does not change how many there are. -/
theorem length_keys_insert_of_mem {s : AList (fun _ : κ => α)} {k : κ} (v : α) (h : k ∈ s) :
    (s.insert k v).keys.length = s.keys.length := by
  have hk : k ∈ s.keys := AList.mem_keys.mp h
  have hpos : 0 < s.keys.length := List.length_pos_of_mem hk
  rw [AList.keys_insert, List.length_cons, List.length_erase_of_mem hk]
  omega

/-- An entry under a new key adds at most one. -/
theorem length_keys_insert_le (s : AList (fun _ : κ => α)) (k : κ) (v : α) :
    (s.insert k v).keys.length ≤ s.keys.length + 1 := by
  rw [AList.keys_insert, List.length_cons]
  exact Nat.succ_le_succ List.length_erase_le

/-- The entries after a use of `k`: the one under `k`, if there is one, moved to the front. -/
def front (m : LruMap κ α) (k : κ) : AList (fun _ : κ => α) :=
  match m.items.lookup k with
  | none => m.items
  | some v => m.items.insert k v

/-- A use changes the order only. -/
theorem length_front (m : LruMap κ α) (k : κ) : (m.front k).keys.length = m.items.keys.length := by
  unfold front
  cases h : m.items.lookup k with
  | none => rfl
  | some v => exact length_keys_insert_of_mem v (AList.lookup_isSome.mp (by rw [h]; rfl))

/-- Look `k` up and, when it is there, make it the most recently used entry. -/
def get (m : LruMap κ α) (k : κ) : Option α × LruMap κ α :=
  (m.lookup k, { m with items := m.front k, size_le := by rw [length_front]; exact m.size_le })

/-- The entries a `put k` keeps beside its own: all but those of the victim. -/
def kept (m : LruMap κ α) (k : κ) : AList (fun _ : κ => α) :=
  match m.victim k with
  | none => m.items
  | some k₀ => m.items.erase k₀

/-- What a `put k` keeps leaves room for its own entry. -/
theorem length_insert_kept_le (m : LruMap κ α) (k : κ) (v : α) :
    ((m.kept k).insert k v).keys.length ≤ m.cap := by
  unfold kept victim
  by_cases hk : k ∈ m.items
  · -- `k` is there: its entry is replaced
    rw [if_pos (Or.inl hk)]
    rw [length_keys_insert_of_mem v hk]
    exact m.size_le
  · by_cases hroom : m.len < m.cap
    · -- there is room for one more
      rw [if_pos (Or.inr hroom)]
      exact Nat.le_trans (length_keys_insert_le _ _ _) hroom
    · -- full without `k`: one entry goes and one comes
      rw [if_neg (by simp [hk, hroom])]
      cases hlast : m.items.keys.getLast? with
      | none =>
        -- a full map has a last entry, since its capacity is positive
        have hnil : m.items.keys = [] := List.getLast?_eq_none_iff.mp hlast
        have hzero : m.len = 0 := by rw [len, hnil]; rfl
        have := m.cap_pos
        omega
      | some k₀ =>
        have hmem : k₀ ∈ m.items.keys := List.mem_of_getLast? hlast
        have hpos : 0 < m.items.keys.length := List.length_pos_of_mem hmem
        have hle := length_keys_insert_le (m.items.erase k₀) k v
        rw [AList.keys_erase, List.length_erase_of_mem hmem] at hle
        have := m.size_le
        show ((m.items.erase k₀).insert k v).keys.length ≤ m.cap
        omega

/-- Store `v` under `k` as the most recently used entry, dropping the victim. -/
def put (m : LruMap κ α) (k : κ) (v : α) : LruMap κ α :=
  { m with
    items := (m.kept k).insert k v
    size_le := m.length_insert_kept_le k v }

/-! ## The map as a partial function -/

/-- A map without entries has nothing under any key. -/
@[simp] theorem lookup_empty (cap : Nat) (h : 0 < cap) (k : κ) :
    (empty cap h : LruMap κ α).lookup k = none :=
  AList.lookup_empty k

theorem mem_items_iff {m : LruMap κ α} {k : κ} : k ∈ m.items ↔ (m.lookup k).isSome :=
  AList.lookup_isSome.symm

/-- `get` answers the entry. -/
@[simp] theorem get_fst (m : LruMap κ α) (k : κ) : (m.get k).1 = m.lookup k := rfl

/-- A miss changes nothing. -/
theorem get_of_none {m : LruMap κ α} {k : κ} (h : m.lookup k = none) : m.get k = (none, m) := by
  have hfront : m.front k = m.items := by
    unfold front
    rw [show m.items.lookup k = none from h]
  cases m
  simp only [get, h, hfront]

/-- `get` only reorders: no key gains, loses or changes its entry. -/
@[simp] theorem lookup_get (m : LruMap κ α) (k k' : κ) : (m.get k).2.lookup k' = m.lookup k' := by
  show (m.front k).lookup k' = m.items.lookup k'
  unfold front
  cases h : m.items.lookup k with
  | none => rfl
  | some v =>
    by_cases hk : k' = k
    · subst hk; rw [AList.lookup_insert, h]
    · rw [AList.lookup_insert_ne hk]

/-- The entry just stored is there. -/
@[simp] theorem lookup_put_self (m : LruMap κ α) (k : κ) (v : α) : (m.put k v).lookup k = some v :=
  AList.lookup_insert _

/-- A `put` changes no other entry than the victim's, and drops that one. -/
theorem lookup_put_ne (m : LruMap κ α) {k k' : κ} (v : α) (h : k' ≠ k) :
    (m.put k v).lookup k' = if m.victim k = some k' then none else m.lookup k' := by
  show ((m.kept k).insert k v).lookup k' = _
  rw [AList.lookup_insert_ne h, kept]
  cases hv : m.victim k with
  | none => rw [if_neg (by simp)]; rfl
  | some k₀ =>
    by_cases hk : k₀ = k'
    · subst hk; rw [if_pos rfl]; exact AList.lookup_erase _ _
    · rw [if_neg (by simpa using hk)]; exact AList.lookup_erase_ne (Ne.symm hk)

/-- The victim is an entry of the map, under another key. -/
theorem victim_mem {m : LruMap κ α} {k k₀ : κ} (h : m.victim k = some k₀) :
    (m.lookup k₀).isSome ∧ k₀ ≠ k := by
  unfold victim at h
  split at h
  · -- no entry is dropped
    nomatch h
  · -- the last entry of a full map that does not hold `k`
    rename_i hfull
    have hmem : k₀ ∈ m.items := AList.mem_keys.mpr (List.mem_of_getLast? h)
    refine ⟨mem_items_iff.mp hmem, ?_⟩
    rintro rfl
    exact hfull (Or.inl hmem)

/-! ## Size and capacity -/

@[simp] theorem cap_get (m : LruMap κ α) (k : κ) : (m.get k).2.cap = m.cap := rfl

@[simp] theorem cap_put (m : LruMap κ α) (k : κ) (v : α) : (m.put k v).cap = m.cap := rfl

/-! ## Properties of all entries -/

/-- Every entry satisfies `P`. -/
def AllEntries (P : κ → α → Prop) (m : LruMap κ α) : Prop :=
  ∀ k v, m.lookup k = some v → P k v

variable {P : κ → α → Prop} {m : LruMap κ α}

theorem AllEntries.empty (cap : Nat) (h : 0 < cap) : AllEntries P (empty cap h : LruMap κ α) := by
  intro k v hv
  rw [lookup_empty] at hv
  nomatch hv

theorem AllEntries.get (h : AllEntries P m) (k : κ) : AllEntries P (m.get k).2 := by
  intro k' v hv
  rw [lookup_get] at hv
  exact h k' v hv

/-- A `put` adds one entry, so only that one has to be shown. -/
theorem AllEntries.put (h : AllEntries P m) {k : κ} {v : α} (hv : P k v) :
    AllEntries P (m.put k v) := by
  intro k' v' hv'
  by_cases hk : k' = k
  · -- the entry just stored
    subst hk
    rw [lookup_put_self] at hv'
    exact Option.some.inj hv' ▸ hv
  · -- an older one, which the victim is not
    rw [lookup_put_ne m v hk] at hv'
    split at hv'
    · nomatch hv'
    · exact h k' v' hv'

end LruMap
