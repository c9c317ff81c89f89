/-
  STRINGS INDEXED BY BYTES: a list of characters of different widths, cut and sliced at byte
  offsets, as languages with UTF-8 strings do it.

  An offset past the end or inside a character is no place to cut: the answer there is `none`.

  Every place where a text can be cut is the size of a part in front (`splitAt?_size`), so a
  slice is a part of the text; the offset of an occurrence is such a place
  (`find?_of_cut?`).
-/
import Mathlib.Algebra.BigOperators.Group.List.Basic
import Mathlib.Algebra.GroupWithZero.Nat
import PpService.Lib.Delim

namespace ByteStr

variable {α : Type*} (width : α → Nat)

/-- The length in bytes. -/
def size (s : List α) : Nat := (s.map width).sum

/-- The sizes of two texts add up. -/
@[simp] theorem size_append (s t : List α) : size width (s ++ t) = size width s + size width t := by
  rw [size, List.map_append, List.sum_append, size, size]

/-- The text before and the text after byte `n`. -/
def splitAt? : Nat → List α → Option (List α × List α)
  | 0, s => some ([], s)
  | _ + 1, [] => none
  | n + 1, c :: s =>
    if width c ≤ n + 1 then (splitAt? (n + 1 - width c) s).map fun p => (c :: p.1, p.2)
    else none

/-- A text can be split where its first part ends. -/
theorem splitAt?_size (hpos : ∀ c, 0 < width c) (a b : List α) :
    splitAt? width (size width a) (a ++ b) = some (a, b) := by
  induction a with
  | nil => rw [size, List.map_nil, List.sum_nil, List.nil_append, splitAt?]
  | cons c a ih =>
    have hsize : size width (c :: a) = (width c + size width a - 1) + 1 := by
      have := hpos c
      rw [size, List.map_cons, List.sum_cons, size]
      omega
    have hrest : width c + size width a - 1 + 1 - width c = size width a := by
      have := hpos c
      omega
    rw [hsize, List.cons_append, splitAt?, if_pos (by omega), hrest, ih]
    rfl

/-- `s[i..]`. -/
def sliceFrom? (i : Nat) (s : List α) : Option (List α) := (splitAt? width i s).map Prod.snd

/-- `s[..j]`. -/
def sliceTo? (j : Nat) (s : List α) : Option (List α) := (splitAt? width j s).map Prod.fst

/-- `s[i..j]`. -/
def slice? (i j : Nat) (s : List α) : Option (List α) :=
  (sliceTo? width j s).bind (sliceFrom? width i)

/-- So the slice from there on is its second part. -/
theorem sliceFrom?_size (hpos : ∀ c, 0 < width c) (a b : List α) :
    sliceFrom? width (size width a) (a ++ b) = some b := by
  rw [sliceFrom?, splitAt?_size width hpos]
  rfl

theorem sliceTo?_size (hpos : ∀ c, 0 < width c) (a b : List α) :
    sliceTo? width (size width a) (a ++ b) = some a := by
  rw [sliceTo?, splitAt?_size width hpos]
  rfl

/-- The slice between two such places is what stands between them. -/
theorem slice?_size (hpos : ∀ c, 0 < width c) (a q b : List α) :
    slice? width (size width a) (size width a + size width q) (a ++ (q ++ b)) = some q := by
  rw [slice?, ← size_append, ← List.append_assoc, sliceTo?_size width hpos, Option.bind_some,
    sliceFrom?_size width hpos]

variable [DecidableEq α]

/-- The offset of the leftmost occurrence. -/
def find? (d s : List α) : Option Nat := (Delim.cut? d s).map fun p => size width p.1

theorem find?_of_none {d s : List α} (h : Delim.cut? d s = none) : find? width d s = none := by
  rw [find?, h, Option.map_none]

/-- The place of the leftmost occurrence is the size of what stands before it; it is a boundary, so
    slicing there does not fail. -/
theorem find?_of_cut? {d s a b : List α} (h : Delim.cut? d s = some (a, b)) :
    find? width d s = some (size width a) := by
  rw [find?, h, Option.map_some]

end ByteStr
