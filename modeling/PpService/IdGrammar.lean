/-
  THE GRAMMAR OF THE SCAN: what `parse_beatmap_id` makes of a text that is put together from
  header lines, a line with the key, and anything at all.

  A line is read by what it is when trimmed, so neither the line ending nor the whitespace
  matters; the first line with the key or the header of the objects ends the scan, so nothing
  after it does.  The number is read digit by digit with an overflow check at every step, which
  is a check of the whole number because the steps only grow (`parseDigits_eq`).

  1. **Numbers.**  Zeros in front do not matter, and 2^32 - 1 is the largest number read
     (`parseU32_decimal`).
  2. **Lines.**  LF, CRLF and the end of the text end a line alike (`lines_of_endsLine`): a CR
     that `lines` leaves is trimmed away.
  3. **The scan.**  Header lines are passed over one by one (`scanLines_headerText`), then the
     next line decides (`parseBeatmapId_grammar`).
-/
import PpService.MetadataId

namespace PpService

/-! ## Numbers -/

/-- A digit of Lean's is one of Rust's, with the same value. -/
theorem digitValue_of_isDigit {c : Char} (h : c.isDigit) :
    digitValue c = some (c.toNat - '0'.toNat) := by
  rw [Char.isDigit, Bool.and_eq_true, decide_eq_true_eq, decide_eq_true_eq] at h
  exact if_pos h

/-- The value only grows. -/
theorem le_ofDigitChars (acc : Nat) (digits : List Char) :
    acc ≤ Nat.ofDigitChars 10 digits acc := by
  induction digits generalizing acc with
  | nil => rw [Nat.ofDigitChars_nil]
  | cons c digits ih =>
    rw [Nat.ofDigitChars_cons]
    have := ih (10 * acc + (c.toNat - '0'.toNat))
    omega

/-- The checks of the digits are one check of the number. -/
theorem parseDigits_eq {digits : List Char} (hdigits : ∀ c ∈ digits, c.isDigit) (acc : Nat)
    (hacc : acc < 2 ^ 32) :
    parseDigits acc digits =
      if Nat.ofDigitChars 10 digits acc < 2 ^ 32 then some (Nat.ofDigitChars 10 digits acc)
      else none := by
  induction digits generalizing acc with
  | nil => rw [parseDigits, Nat.ofDigitChars_nil, if_pos hacc]
  | cons c digits ih =>
    have hvalue := digitValue_of_isDigit (hdigits c List.mem_cons_self)
    have hrest : ∀ d ∈ digits, d.isDigit := fun d hd => hdigits d (List.mem_cons_of_mem c hd)
    have hstep : acc * 10 + (c.toNat - '0'.toNat) = 10 * acc + (c.toNat - '0'.toNat) := by omega
    rw [parseDigits, hvalue, Nat.ofDigitChars_cons]
    simp only [hstep]
    split_ifs with hnext hall hall
    · -- no check fails
      rw [ih hrest _ hnext, if_pos hall]
    · -- a later one fails
      rw [ih hrest _ hnext, if_neg hall]
    · -- this one fails, and the number is no smaller
      have := le_ofDigitChars (10 * acc + (c.toNat - '0'.toNat)) digits
      omega
    · rfl

/-- No digit is whitespace, so trimming stops at a number. -/
theorem not_isWhitespace_of_isDigit {c : Char} (h : c.isDigit) : ¬ isWhitespace c := by
  rw [Char.isDigit, Bool.and_eq_true, decide_eq_true_eq, decide_eq_true_eq] at h
  have hlow : 48 ≤ c.toNat := h.1
  have hhigh : c.toNat ≤ 57 := h.2
  simp only [isWhitespace, Bool.or_eq_true, Bool.and_eq_true, decide_eq_true_eq, beq_iff_eq]
  omega

/-- A number in decimal, after any number of zeros. -/
def decimal (zeros n : Nat) : List Char := List.replicate zeros '0' ++ Nat.toDigits 10 n

theorem isDigit_of_mem_decimal {zeros n : Nat} {c : Char} (h : c ∈ decimal zeros n) :
    c.isDigit := by
  rcases List.mem_append.mp h with hzero | hdigit
  · rw [List.eq_of_mem_replicate hzero]
    decide
  · exact Nat.isDigit_of_mem_toDigits (by decide) (by decide) hdigit

theorem decimal_ne_nil (zeros n : Nat) : decimal zeros n ≠ [] :=
  List.append_ne_nil_of_right_ne_nil _ Nat.toDigits_ne_nil

/-- The value of such digits is the number: zeros in front count nothing. -/
theorem ofDigitChars_decimal (zeros n : Nat) : Nat.ofDigitChars 10 (decimal zeros n) 0 = n := by
  rw [decimal, Nat.ofDigitChars_append, Nat.ofDigitChars_replicate_zero, Nat.mul_zero,
    Nat.ofDigitChars_toDigits (by decide) (by decide)]

/-- Digits alone are read by their checks: no sign is among them. -/
theorem parseU32_of_digits {s : List Char} (hne : s ≠ []) (hdigits : ∀ c ∈ s, c.isDigit) :
    parseU32 s = (parseDigits 0 s).map UInt32.ofNat := by
  cases s with
  | nil => exact absurd rfl hne
  | cons c s =>
    have hplus : c ≠ '+' := by
      rintro rfl
      exact absurd (hdigits '+' List.mem_cons_self) (by decide)
    simp [parseU32, hplus]

/-- A number in decimal is read as itself, up to the largest `u32`. -/
theorem parseU32_decimal (zeros n : Nat) :
    parseU32 (decimal zeros n) = if n < 2 ^ 32 then some (UInt32.ofNat n) else none := by
  have hdigits : ∀ c ∈ decimal zeros n, c.isDigit := fun _ hc => isDigit_of_mem_decimal hc
  rw [parseU32_of_digits (decimal_ne_nil zeros n) hdigits, parseDigits_eq hdigits 0 (by decide),
    ofDigitChars_decimal]
  split_ifs
  · rfl
  · rfl

/-! ## Lines -/

/-- How a line may end. -/
inductive Eol where
  | lf
  | crlf

/-- The characters of an ending. -/
def Eol.text : Eol → List Char
  | .lf => ['\n']
  | .crlf => ['\r', '\n']

/-- Whitespace within a line. -/
def Blank (s : List Char) : Prop := ∀ c ∈ s, isWhitespace c ∧ c ≠ '\n'

/-- Whitespace before a line is not seen. -/
theorem trim_append_of_whitespace {b : List Char} (hb : ∀ c ∈ b, isWhitespace c)
    (s : List Char) : trim (b ++ s) = trim s := by
  rw [trim, List.dropWhile_append_of_pos hb, trim]

theorem trim_append_whitespace {a : List Char} (ha : ∀ c ∈ a, isWhitespace c)
    (s : List Char) : trim (s ++ a) = trim s := by
  induction a using List.reverseRecOn with
  | nil => rw [List.append_nil]
  | append_singleton a c ih =>
    -- from the right end, one character at a time
    have hc : isWhitespace c := ha c (List.mem_append_right a (List.mem_singleton_self c))
    have ha' : ∀ d ∈ a, isWhitespace d := fun d hd => ha d (List.mem_append_left _ hd)
    rw [← List.append_assoc]
    exact (dropWhile_rdropWhile_concat hc (s ++ a)).trans (ih ha')

theorem isWhitespace_cr : ∀ c ∈ ['\r'], isWhitespace c := by
  simp [isWhitespace]

/-- It does not matter whether a carriage return has been stripped. -/
theorem trim_stripCr (line : List Char) : trim (stripCr line) = trim line := by
  rw [stripCr]
  split_ifs with hcr
  · obtain ⟨front, rfl⟩ := List.getLast?_eq_some_iff.mp hcr
    rw [List.dropLast_concat]
    exact (trim_append_whitespace isWhitespace_cr front).symm
  · rfl

/-- A text without a line feed is one line. -/
theorem lines_of_not_mem {l : List Char} (h : '\n' ∉ l) (hne : l ≠ []) : lines l = [l] := by
  rw [lines, List.splitOn_eq_singleton h]
  simp [hne]

/-- The first line of a text. -/
theorem lines_append_lf {l : List Char} (h : '\n' ∉ l) (rest : List Char) :
    lines (l ++ '\n' :: rest) = stripCr l :: lines rest := by
  obtain ⟨p, ps, hp⟩ := List.exists_cons_of_ne_nil (List.splitOn_ne_nil '\n' rest)
  have hsplit : (l ++ '\n' :: rest).splitOn '\n' = l :: p :: ps := by
    rw [List.splitOn_append_cons_self, List.splitOn_eq_singleton h, hp]
    rfl
  rw [lines, lines, hsplit, hp]
  rfl

/-- A text whose first line, when trimmed, is `l` trimmed. -/
theorem lines_cons {l : List Char} (h : '\n' ∉ l) (e : Eol) (rest : List Char) :
    ∃ line, lines (l ++ (e.text ++ rest)) = line :: lines rest ∧ trim line = trim l := by
  cases e with
  | lf => exact ⟨stripCr l, lines_append_lf h rest, trim_stripCr l⟩
  | crlf =>
    -- the carriage return is part of the line until it is stripped
    have hcr : '\n' ∉ l ++ ['\r'] := by simpa using h
    refine ⟨stripCr (l ++ ['\r']), ?_, ?_⟩
    · rw [← lines_append_lf hcr rest]
      simp [Eol.text]
    · rw [trim_stripCr, trim_append_whitespace isWhitespace_cr]

/-- A line ends where the text does, or anything may follow its ending. -/
def EndsLine (ending : List Char) (tail : ByteArray) : Prop :=
  (ending = [] ∧ tail = ByteArray.empty) ∨ ∃ e, ending = Eol.text e

/-! ## The scan -/

/-- A line that the scan passes: trimmed, it neither begins with the key nor is the header of the
    objects. -/
structure HeaderLine (line : List Char) : Prop where
  no_lf : '\n' ∉ line
  no_key : ¬ idKey <+: trim line
  no_objects : ¬ hitObjectsHeader <+: trim line

/-- The text of header lines with their endings. -/
def headerText (headers : List (List Char × Eol)) : List Char :=
  headers.flatMap fun h => h.1 ++ h.2.text

/-- In the terms of the scan's own test. -/
theorem HeaderLine.not_beginsWithKey {line : List Char} (h : ¬ idKey <+: trim line) :
    ¬ beginsWithKey line := by
  intro hkey
  obtain ⟨rest, hrest⟩ := Option.isSome_iff_exists.mp hkey
  obtain ⟨key, hline, hbeq⟩ := List.dropPrefix?_eq_some_iff.mp hrest
  rw [beq_iff_eq.mp hbeq] at hline
  exact h ⟨rest, hline.symm⟩

/-- The scan passes header lines, whatever comes after them. -/
theorem scanLines_headerText {headers : List (List Char × Eol)}
    (h : ∀ header ∈ headers, HeaderLine header.1) (rest : List Char) :
    scanLines (lines (headerText headers ++ rest)) = scanLines (lines rest) := by
  induction headers with
  | nil => rfl
  | cons header headers ih =>
    have hheader := h header List.mem_cons_self
    obtain ⟨line, hlines, htrim⟩ := lines_cons hheader.no_lf header.2 (headerText headers ++ rest)
    -- neither of the two tests that end the scan holds of the line
    have hkey : ¬ beginsWithKey line := by
      refine HeaderLine.not_beginsWithKey ?_
      rw [htrim]
      exact hheader.no_key
    have hstop : ¬ stopsScan line := by
      rw [stopsScan, List.isPrefixOf_iff_prefix, htrim]
      exact hheader.no_objects
    have htext : headerText (header :: headers) ++ rest =
        header.1 ++ (header.2.text ++ (headerText headers ++ rest)) := by
      simp [headerText]
    rw [htext, hlines, scanLines_cons, if_neg hkey, if_neg hstop,
      ih fun header' hmem => h header' (List.mem_cons_of_mem header hmem)]

/-- Where a line ends and then a valid text comes, the line is read by itself. -/
theorem lines_of_endsLine {l ending rest : List Char} (hl : '\n' ∉ l) (hne : l ≠ [])
    (hend : EndsLine ending rest.utf8Encode) :
    ∃ line ls, lines (l ++ (ending ++ rest)) = line :: ls ∧ trim line = trim l := by
  rcases hend with ⟨rfl, hempty⟩ | ⟨e, rfl⟩
  · -- the text ends with the line
    obtain rfl : rest = [] := List.utf8Encode_eq_empty.mp hempty
    exact ⟨l, [], by simpa using lines_of_not_mem hl hne, rfl⟩
  · -- another line follows
    obtain ⟨line, hlines, htrim⟩ := lines_cons hl e rest
    exact ⟨line, lines rest, hlines, htrim⟩

/-- What is scanned is the text that was encoded. -/
theorem parseBeatmapId_utf8Encode (s : List Char) :
    parseBeatmapId s.utf8Encode = scanLines (lines s) := by
  rw [parseBeatmapId, List.utf8Decode?_utf8Encode]

/-- Whitespace around a number is no part of it. -/
theorem trim_decimal (zeros n : Nat) : trim (decimal zeros n) = decimal zeros n := by
  refine dropWhile_rdropWhile_eq_self (fun c hc => ?_) (fun c hc => ?_)
  · -- its first character is a digit
    exact not_isWhitespace_of_isDigit (isDigit_of_mem_decimal (List.mem_of_head? hc))
  · -- and so is its last one
    exact not_isWhitespace_of_isDigit (isDigit_of_mem_decimal (List.mem_of_getLast? hc))

/-- The line with the key and a number, however it is spaced. -/
def keyLine (before mid after : List Char) (zeros n : Nat) : List Char :=
  before ++ ((idKey ++ (mid ++ decimal zeros n)) ++ after)

theorem keyLine_ne_nil (before mid after : List Char) (zeros n : Nat) :
    keyLine before mid after zeros n ≠ [] := by
  intro h
  obtain ⟨-, hrest⟩ := List.append_eq_nil_iff.mp h
  obtain ⟨hkeyed, -⟩ := List.append_eq_nil_iff.mp hrest
  obtain ⟨hkey, -⟩ := List.append_eq_nil_iff.mp hkeyed
  exact absurd hkey (by decide)

theorem lf_not_mem_keyLine {before mid after : List Char} (hbefore : Blank before)
    (hmid : Blank mid) (hafter : Blank after) (zeros n : Nat) :
    '\n' ∉ keyLine before mid after zeros n := by
  have hdigits : '\n' ∉ decimal zeros n :=
    fun h => absurd (isDigit_of_mem_decimal h) (by decide)
  have hkey : '\n' ∉ idKey := by decide
  simp only [keyLine, List.mem_append, not_or]
  exact ⟨fun h => (hbefore _ h).2 rfl, ⟨hkey, fun h => (hmid _ h).2 rfl, hdigits⟩,
    fun h => (hafter _ h).2 rfl⟩

/-- Trimmed, such a line begins with the key and ends with the number. -/
theorem trim_keyLine {before mid after : List Char} (hbefore : Blank before)
    (hafter : Blank after) (zeros n : Nat) :
    trim (keyLine before mid after zeros n) = idKey ++ (mid ++ decimal zeros n) := by
  rw [keyLine, trim_append_of_whitespace fun c hc => (hbefore c hc).1,
    trim_append_whitespace fun c hc => (hafter c hc).1]
  refine dropWhile_rdropWhile_eq_self (fun c hc => ?_) (fun c hc => ?_)
  · -- the first character is that of the key
    obtain rfl : 'B' = c := Option.some.inj hc
    decide
  · -- the last character is that of the number
    have hsome := List.getLast?_isSome.mpr (decimal_ne_nil zeros n)
    obtain ⟨d, hd⟩ := Option.isSome_iff_exists.mp hsome
    rw [List.getLast?_append, List.getLast?_append, hd] at hc
    obtain rfl := Option.some.inj hc
    exact not_isWhitespace_of_isDigit (isDigit_of_mem_decimal (List.mem_of_getLast? hd))

/-- The number on the line is read. -/
theorem idValue_of_keyLine {before mid after line : List Char} (hbefore : Blank before)
    (hmid : Blank mid) (hafter : Blank after) (zeros n : Nat)
    (h : trim line = trim (keyLine before mid after zeros n)) :
    beginsWithKey line ∧
      idValue line = if n < 2 ^ 32 then some (UInt32.ofNat n) else none := by
  have hdrop : (trim line).dropPrefix? idKey = some (mid ++ decimal zeros n) := by
    rw [h, trim_keyLine hbefore hafter]
    exact List.dropPrefix?_append_of_beq _ (beq_self_eq_true idKey)
  constructor
  · rw [beginsWithKey, hdrop]
    rfl
  · rw [idValue, hdrop, Option.bind_some, trim_append_of_whitespace fun c hc => (hmid c hc).1,
      trim_decimal, parseU32_decimal]

/-- After header lines the scan is at the next line. -/
theorem parseBeatmapId_headerText {headers : List (List Char × Eol)}
    (hheaders : ∀ header ∈ headers, HeaderLine header.1) {l ending : List Char}
    {tail : ByteArray} (hl : '\n' ∉ l) (hne : l ≠ []) (hend : EndsLine ending tail)
    (htail : tail.IsValidUTF8) :
    ∃ line ls, trim line = trim l ∧
      parseBeatmapId ((headerText headers ++ l ++ ending).utf8Encode ++ tail) =
        scanLines (line :: ls) := by
  obtain ⟨rest, rfl⟩ := htail
  obtain ⟨line, ls, hlines, htrim⟩ := lines_of_endsLine hl hne hend
  refine ⟨line, ls, htrim, ?_⟩
  rw [← List.utf8Encode_append, parseBeatmapId_utf8Encode, List.append_assoc, List.append_assoc,
    scanLines_headerText hheaders, hlines]

/-- The grammar of the scan: after header lines, the line with the key and a number gives the
    number if it is a `u32` and nothing otherwise, the header of the objects gives nothing, and
    what comes after either line does not matter. -/
theorem parseBeatmapId_grammar :
    (∀ headers : List (List Char × Eol), (∀ header ∈ headers, HeaderLine header.1) →
      (∀ (zeros n : Nat) (before mid after ending : List Char) (tail : ByteArray),
        Blank before → Blank mid → Blank after → EndsLine ending tail → tail.IsValidUTF8 →
        parseBeatmapId
            ((headerText headers ++ keyLine before mid after zeros n ++ ending).utf8Encode ++
              tail) =
          if n < 2 ^ 32 then some (UInt32.ofNat n) else none) ∧
      (∀ (line ending : List Char) (tail : ByteArray),
        '\n' ∉ line → hitObjectsHeader <+: trim line → EndsLine ending tail →
        tail.IsValidUTF8 →
        parseBeatmapId ((headerText headers ++ line ++ ending).utf8Encode ++ tail) = none)) ∧
    ∀ content : ByteArray, ¬ content.IsValidUTF8 → parseBeatmapId content = none := by
  refine ⟨fun headers hheaders => ⟨?_, ?_⟩, ?_⟩
  · -- the line with the key
    intro zeros n before mid after ending tail hbefore hmid hafter hend htail
    obtain ⟨line, ls, htrim, hparse⟩ := parseBeatmapId_headerText hheaders
      (lf_not_mem_keyLine hbefore hmid hafter zeros n) (keyLine_ne_nil _ _ _ _ _) hend htail
    obtain ⟨hkey, hvalue⟩ := idValue_of_keyLine hbefore hmid hafter zeros n htrim
    rw [hparse, scanLines_cons, if_pos hkey, hvalue]
  · -- the header of the objects, which is no line with the key
    intro l ending tail hl hobjects hend htail
    have hne : l ≠ [] := by
      rintro rfl
      have hblank : trim [] = [] := List.rdropWhile_nil _
      rw [hblank] at hobjects
      exact absurd (List.prefix_nil.mp hobjects) (List.cons_ne_nil _ _)
    have hkey : ¬ idKey <+: trim l := by
      intro hkey
      have hboth := List.prefix_of_prefix_length_le hkey hobjects (by decide)
      exact absurd (List.cons_prefix_cons.mp hboth).1 (by decide)
    obtain ⟨line, ls, htrim, hparse⟩ := parseBeatmapId_headerText hheaders hl hne hend htail
    have hnokey : ¬ beginsWithKey line := HeaderLine.not_beginsWithKey (by rwa [htrim])
    have hstop : stopsScan line := by
      rw [stopsScan, List.isPrefixOf_iff_prefix, htrim]
      exact hobjects
    rw [hparse, scanLines_cons, if_neg hnokey, if_pos hstop]
  · -- bytes that are no text
    intro content hinvalid
    have hdecode : content.utf8Decode? = none := by
      rw [← ByteArray.isSome_utf8Decode?_iff, Option.not_isSome_iff_eq_none] at hinvalid
      exact hinvalid
    rw [parseBeatmapId, hdecode]

/-- An id with zeros before it and the largest id that is too large, after a line with CRLF. -/
theorem parseBeatmapId_grammar_lines :
    parseBeatmapId
        ((headerText [("[Metadata]".toList, .crlf)] ++ keyLine [' '] ['\t'] [' '] 2 42 ++
          Eol.crlf.text).utf8Encode ++ "BeatmapID:7".toList.utf8Encode) =
      some 42 ∧
    parseBeatmapId
        ((headerText [("[Metadata]".toList, .crlf)] ++ keyLine [] [] [] 0 4294967296 ++
          []).utf8Encode ++ ByteArray.empty) =
      none := by
  have hheaders : ∀ header ∈ [("[Metadata]".toList, Eol.crlf)], HeaderLine header.1 := by
    intro header hmem
    obtain rfl := List.mem_singleton.mp hmem
    exact ⟨by decide, by decide, by decide⟩
  have hblank : Blank [] := by simp [Blank]
  have hspace : Blank [' '] := by simp [Blank, isWhitespace]
  have htab : Blank ['\t'] := by simp [Blank, isWhitespace]
  obtain ⟨hline, -⟩ := parseBeatmapId_grammar.1 _ hheaders
  constructor
  · exact hline 2 42 [' '] ['\t'] [' '] _ _ hspace htab hspace (.inr ⟨.crlf, rfl⟩) ⟨_, rfl⟩
  · exact hline 0 4294967296 [] [] [] _ _ hblank hblank hblank (.inl ⟨rfl, rfl⟩)
      ⟨[], List.utf8Encode_nil.symm⟩

end PpService
