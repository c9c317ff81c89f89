/-
  THE KEY OF THE CACHE: `parse_beatmap_id` of `src/cache.rs`, the scan of an .osu text for its
  `BeatmapID:` line.

  Text is a list of characters: `std::str::from_utf8` is `ByteArray.utf8Decode?`, and `lines`,
  `trim`, `strip_prefix` and `parse::<u32>` are written out below as the standard library
  documents them.

  The numbers are read as `u32::from_str` reads them: one optional `+`, at least one digit, and
  an overflow check at each digit, so a text that is no `u32` is no id.  The scan reads the first
  line that begins with the key, whatever stands behind it, and stops there: a key whose number
  cannot be read hides every id after it.
-/
import Mathlib.Algebra.Group.Nat.Defs
import Mathlib.Data.List.DropRight

namespace PpService

/-! ## The string functions of the standard library -/

/-- `char::is_whitespace`: the characters with the Unicode property `White_Space`. -/
def isWhitespace (c : Char) : Bool :=
  let n := c.toNat
  (0x9 ≤ n && n ≤ 0xD) || n == 0x20 || n == 0x85 || n == 0xA0 || n == 0x1680
    || (0x2000 ≤ n && n ≤ 0x200A) || n == 0x2028 || n == 0x2029 || n == 0x202F || n == 0x205F
    || n == 0x3000

/-- An element that is dropped at both ends may as well not be there. -/
theorem dropWhile_rdropWhile_concat {p : Char → Bool} {c : Char} (hc : p c) (s : List Char) :
    ((s ++ [c]).dropWhile p).rdropWhile p = (s.dropWhile p).rdropWhile p := by
  rw [List.dropWhile_append]
  split_ifs with hempty
  · -- everything before it is dropped too
    rw [List.isEmpty_iff.mp hempty, List.dropWhile_cons_of_pos hc]
    rfl
  · -- it is the first to go from the right end
    exact List.rdropWhile_concat_pos _ _ _ hc

/-- Between a first and a last element that stay nothing is dropped. -/
theorem dropWhile_rdropWhile_eq_self {p : Char → Bool} {s : List Char}
    (hfirst : ∀ c, s.head? = some c → ¬ p c) (hlast : ∀ c, s.getLast? = some c → ¬ p c) :
    (s.dropWhile p).rdropWhile p = s := by
  have hdrop : s.dropWhile p = s := by
    cases s with
    | nil => rfl
    | cons c s => exact List.dropWhile_cons_of_neg (hfirst c rfl)
  rw [hdrop, List.rdropWhile_eq_self_iff]
  exact fun hne => hlast _ (List.getLast?_eq_some_getLast hne)

/-- `str::trim`. -/
def trim (s : List Char) : List Char :=
  (s.dropWhile isWhitespace).rdropWhile isWhitespace

/-- A line that ended in LF loses a CR before it. -/
def stripCr (line : List Char) : List Char :=
  if line.getLast? = some '\r' then line.dropLast else line

/-- `str::lines`: what follows the last LF is a line of its own unless it is empty, and keeps
    a CR at its end. -/
def lines (s : List Char) : List (List Char) :=
  let segments := s.splitOn '\n'
  let last := segments.getLastD []
  segments.dropLast.map stripCr ++ if last = [] then [] else [last]

/-- `char::to_digit(10)`. -/
def digitValue (c : Char) : Option Nat :=
  if '0' ≤ c ∧ c ≤ '9' then some (c.toNat - '0'.toNat) else none

/-- The digits from left to right, each step with its overflow check. -/
def parseDigits : Nat → List Char → Option Nat
  | acc, [] => some acc
  | acc, c :: rest =>
    match digitValue c with
    | none => none
    | some d => if acc * 10 + d < 2 ^ 32 then parseDigits (acc * 10 + d) rest else none

/-- `str::parse::<u32>().ok()`: one `+` may come first, and there must be a digit. -/
def parseU32 (s : List Char) : Option UInt32 :=
  let digits := match s with
    | '+' :: rest => rest
    | s => s
  if digits = [] then none else (parseDigits 0 digits).map UInt32.ofNat

/-! ## The scan -/

/-- The line that carries the id. -/
def idKey : List Char := "BeatmapID:".toList

/-- The line the scan stops at. -/
def hitObjectsHeader : List Char := "[HitObjects]".toList

/-- The loop over the lines. -/
def scanLines : List (List Char) → Option UInt32
  | [] => none
  | line :: rest =>
    let line := trim line
    match line.dropPrefix? idKey with
    -- the key's line decides, with a number or without
    | some id => parseU32 (trim id)
    -- the objects come after the metadata, so there is no key any more
    | none => if hitObjectsHeader.isPrefixOf line then none else scanLines rest

/-- `parse_beatmap_id`. -/
def parseBeatmapId (content : ByteArray) : Option UInt32 :=
  match content.utf8Decode? with
  -- bytes that are no UTF-8 have no id
  | none => none
  | some text => scanLines (lines text.toList)

/-- On an encoded text the scan reads the text. -/
theorem parseBeatmapId_toUTF8 (text : String) :
    parseBeatmapId text.toUTF8 = scanLines (lines text.toList) := by
  have hbytes : text.toUTF8 = text.toList.utf8Encode := by
    rw [String.utf8Encode_toList, String.toUTF8_eq_toByteArray]
  rw [hbytes, parseBeatmapId, List.utf8Decode?_utf8Encode]

example : parseBeatmapId "[Metadata]\r\n BeatmapID: 0042 \r\n".toUTF8 = some 42 := by
  rw [parseBeatmapId_toUTF8]
  decide

end PpService
