/-
  THE KEY OF THE CACHE AND THE METADATA: which line of an .osu text `parse_beatmap_id` takes the
  id from.

  An .osu text is made of sections, each under a header in brackets, and the id belongs to the
  section `[Metadata]`.  The scan knows one header only, `[HitObjects]`, and reads the first
  line that begins with the key (`ReadsIdAt`), in whatever section it is.  So the key of the
  cache is the metadata id exactly of those texts in which no other line comes first
  (`NoStrayId`).

  Three tests of a line are all that the scan knows, and they are named here: the line begins
  with the key (`beginsWithKey`), it stops the scan (`stopsScan`), or neither.  Sections
  (`InMetadata`) and key-value lines (`keyValue`) are what the file format knows beside it, and
  what the key of the cache is measured by.  In a text with a stray id (`strayText`) the cache
  has one key and the metadata another.
-/
import PpService.BeatmapId

namespace PpService

/-! ## Lines -/

/-- The line begins with the key. -/
def beginsWithKey (line : List Char) : Bool := ((trim line).dropPrefix? idKey).isSome

/-- The line ends the scan. -/
def stopsScan (line : List Char) : Bool := hitObjectsHeader.isPrefixOf (trim line)

/-- The id that the scan takes from a line. -/
def idValue (line : List Char) : Option UInt32 :=
  ((trim line).dropPrefix? idKey).bind fun id => parseU32 (trim id)

/-- A header in brackets. -/
def isSectionHeader (line : List Char) : Bool :=
  (trim line).head? == some '[' && (trim line).getLast? == some ']'

/-- The header of the section the id belongs to. -/
def metadataHeader : List Char := "[Metadata]".toList

/-- Key and value of a line: what stands before and after its first colon. -/
def keyValue (line : List Char) : Option (List Char × List Char) :=
  match (trim line).span (· != ':') with
  | (key, ':' :: value) => some (trim key, trim value)
  | _ => none

/-- Line `k` is in the section `[Metadata]`: after its header and before the next one. -/
def InMetadata (lines : List (List Char)) (k : Nat) : Prop :=
  ∃ j < k, (∃ header, lines[j]? = some header ∧ trim header = metadataHeader) ∧
    ∀ i < k, j < i → ∀ line, lines[i]? = some line → ¬ isSectionHeader line

/-! ## The line that is read -/

/-- The scan in terms of the three tests of a line. -/
theorem scanLines_cons (line : List Char) (rest : List (List Char)) :
    scanLines (line :: rest) =
      if beginsWithKey line then idValue line
      else if stopsScan line then none else scanLines rest := by
  rw [scanLines]
  unfold beginsWithKey idValue stopsScan
  cases (trim line).dropPrefix? idKey with
  | none => rfl
  | some id => rfl

/-- Only a line with the key has an id. -/
theorem beginsWithKey_of_idValue {line : List Char} {n : UInt32} (h : idValue line = some n) :
    beginsWithKey line := by
  unfold idValue at h
  unfold beginsWithKey
  cases hdrop : (trim line).dropPrefix? idKey with
  | none =>
    rw [hdrop] at h
    cases h
  | some id => rfl

/-- Line `k` is the first one that begins with the key, and nothing stops the scan before.  Whether
    a number can be read there is another matter. -/
def ReadsIdAt (lines : List (List Char)) (k : Nat) : Prop :=
  (∃ line, lines[k]? = some line ∧ beginsWithKey line) ∧
    ∀ j < k, ∀ line, lines[j]? = some line → ¬ beginsWithKey line ∧ ¬ stopsScan line

/-- There is one such line at most. -/
theorem ReadsIdAt.unique {lines : List (List Char)} {k k' : Nat} (h : ReadsIdAt lines k)
    (h' : ReadsIdAt lines k') : k = k' := by
  obtain ⟨⟨line, hline, hkey⟩, hbefore⟩ := h
  obtain ⟨⟨line', hline', hkey'⟩, hbefore'⟩ := h'
  rcases Nat.lt_trichotomy k k' with hlt | heq | hgt
  · -- whichever is first stops the scan before the other
    exact absurd hkey (hbefore' k hlt line hline).1
  · exact heq
  · exact absurd hkey' (hbefore k' hgt line' hline').1

/-- In a text behind one more line that the scan passes over. -/
theorem ReadsIdAt.cons {lines : List (List Char)} {k : Nat} (h : ReadsIdAt lines k)
    {first : List Char} (hkey : ¬ beginsWithKey first) (hstop : ¬ stopsScan first) :
    ReadsIdAt (first :: lines) (k + 1) := by
  obtain ⟨hline, hbefore⟩ := h
  refine ⟨hline, ?_⟩
  intro j hj line hj'
  cases j with
  | zero =>
    obtain rfl : first = line := Option.some.inj hj'
    exact ⟨hkey, hstop⟩
  | succ j => exact hbefore j (by omega) line hj'

/-- The scan answers the value of the line it reads. -/
theorem readsIdAt_of_scanLines {lines : List (List Char)} {n : UInt32}
    (h : scanLines lines = some n) :
    ∃ k line, lines[k]? = some line ∧ idValue line = some n ∧ ReadsIdAt lines k := by
  induction lines with
  | nil => cases h
  | cons first rest ih =>
    rw [scanLines_cons] at h
    by_cases hkey : beginsWithKey first
    · -- the first line is read, and nothing is before it
      rw [if_pos hkey] at h
      refine ⟨0, first, rfl, h, ⟨first, rfl, hkey⟩, ?_⟩
      intro j hj
      exact absurd hj (Nat.not_lt_zero j)
    · -- the line read is one of the rest
      rw [if_neg hkey] at h
      by_cases hstop : stopsScan first
      · rw [if_pos hstop] at h
        cases h
      · rw [if_neg hstop] at h
        obtain ⟨k, line, hline, hvalue, hreads⟩ := ih h
        exact ⟨k + 1, line, hline, hvalue, hreads.cons hkey hstop⟩

/-- And the line it reads is the one it answers from. -/
theorem scanLines_of_readsIdAt {lines : List (List Char)} {k : Nat} {line : List Char}
    (hline : lines[k]? = some line) (h : ReadsIdAt lines k) :
    scanLines lines = idValue line := by
  induction lines generalizing k with
  | nil => cases hline
  | cons first rest ih =>
    obtain ⟨⟨line', hline', hkey⟩, hbefore⟩ := h
    obtain rfl : line = line' := Option.some.inj (hline.symm.trans hline')
    rw [scanLines_cons]
    cases k with
    | zero =>
      obtain rfl : first = line := Option.some.inj hline
      rw [if_pos hkey]
    | succ k =>
      -- the line before it is passed
      obtain ⟨hnokey, hnostop⟩ := hbefore 0 (Nat.succ_pos k) first rfl
      rw [if_neg hnokey, if_neg hnostop]
      refine ih hline ⟨⟨line, hline, hkey⟩, ?_⟩
      intro j hj other hother
      exact hbefore (j + 1) (Nat.succ_lt_succ hj) other hother

/-- A line with an id is a line with the key `BeatmapID` and this value. -/
theorem keyValue_of_idValue {line : List Char} {n : UInt32} (h : idValue line = some n) :
    ∃ value, keyValue line = some ("BeatmapID".toList, value) ∧ parseU32 value = some n := by
  unfold idValue at h
  obtain ⟨rest, hdrop, hparse⟩ := Option.bind_eq_some_iff.mp h
  obtain ⟨key, hsplit, hkey⟩ := List.dropPrefix?_eq_some_iff.mp hdrop
  have hkey' : key = idKey := eq_of_beq hkey
  refine ⟨trim rest, ?_, hparse⟩
  rw [keyValue, hsplit, hkey']
  rfl

/-! ## The key of the cache -/

/-- The key of the cache is the metadata id: a text with a key has a metadata line with this
    key and value, and no other line is where the key is read. -/
def KeyIsMetadataId (text : String) : Prop :=
  ∀ n, parseBeatmapId text.toUTF8 = some n →
    (∃ k line value, (lines text.toList)[k]? = some line ∧ InMetadata (lines text.toList) k ∧
      keyValue line = some ("BeatmapID".toList, value) ∧ parseU32 value = some n) ∧
    ∀ k, ReadsIdAt (lines text.toList) k → InMetadata (lines text.toList) k

/-- A line with an id outside the metadata comes after another line that begins with the key, or
    after the end of the scan. -/
def NoStrayId (lines : List (List Char)) : Prop :=
  ∀ k line n, lines[k]? = some line → idValue line = some n → ¬ InMetadata lines k →
    ∃ j < k, ∃ other, lines[j]? = some other ∧ (beginsWithKey other ∨ stopsScan other)

/-- **The key of the cache is the metadata id** of exactly those texts without a stray id. -/
theorem key_is_metadata_id_iff (text : String) :
    KeyIsMetadataId text ↔ NoStrayId (lines text.toList) := by
  unfold KeyIsMetadataId
  rw [parseBeatmapId_toUTF8]
  constructor
  · intro hmeta k line n hline hvalue hout
    by_contra hfirst
    -- with nothing before it, the line outside the metadata is the one that is read
    have hreads : ReadsIdAt (lines text.toList) k := by
      refine ⟨⟨line, hline, beginsWithKey_of_idValue hvalue⟩, ?_⟩
      intro j hj other hother
      constructor
      · intro hkey
        exact hfirst ⟨j, hj, other, hother, Or.inl hkey⟩
      · intro hstop
        exact hfirst ⟨j, hj, other, hother, Or.inr hstop⟩
    have hscan : scanLines (lines text.toList) = some n := by
      rw [scanLines_of_readsIdAt hline hreads, hvalue]
    exact hout ((hmeta n hscan).2 k hreads)
  · -- the line that is read is none of the stray ones, for it has nothing before it
    intro hstray n hscan
    obtain ⟨k, line, hline, hvalue, hreads⟩ := readsIdAt_of_scanLines hscan
    have hin : InMetadata (lines text.toList) k := by
      by_contra hout
      obtain ⟨j, hj, other, hother, hkey | hstop⟩ := hstray k line n hline hvalue hout
      · exact (hreads.2 j hj other hother).1 hkey
      · exact (hreads.2 j hj other hother).2 hstop
    obtain ⟨value, hkey, hparse⟩ := keyValue_of_idValue hvalue
    refine ⟨⟨k, line, value, hline, hin, hkey, hparse⟩, ?_⟩
    intro k' hreads'
    rw [← hreads.unique hreads']
    exact hin

/-- A text with an id of its own in the section `[General]`. -/
def strayText : String := "[General]\nBeatmapID:7\n\n[Metadata]\nBeatmapID:1\n"

/-- The first section has its say: the key is 7, and the metadata id is 1. -/
theorem key_of_stray_id :
    parseBeatmapId strayText.toUTF8 = some 7 ∧ ¬ KeyIsMetadataId strayText := by
  have hkey : parseBeatmapId strayText.toUTF8 = some 7 := by
    rw [parseBeatmapId_toUTF8]
    decide
  have hlines : lines strayText.toList
      = ["[General]".toList, "BeatmapID:7".toList, [], "[Metadata]".toList,
          "BeatmapID:1".toList] := by
    decide
  have hreads : ReadsIdAt (lines strayText.toList) 1 := by
    rw [hlines]
    refine ⟨⟨_, rfl, by decide⟩, ?_⟩
    intro j hj line hline
    obtain rfl : j = 0 := by omega
    obtain rfl := Option.some.inj hline
    decide
  refine ⟨hkey, ?_⟩
  intro hmeta
  obtain ⟨j, hj, ⟨header, hheader, hmetadata⟩, _⟩ := (hmeta 7 hkey).2 1 hreads
  rw [hlines] at hheader
  obtain rfl : j = 0 := by omega
  obtain rfl := Option.some.inj hheader
  exact absurd hmetadata (by decide)

end PpService
