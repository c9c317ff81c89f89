/-
  THE DOCUMENTATION PAGE: `render_markdown`, `escape_html` and `process_inline` of `src/main.rs`.

  A string is a list of characters and is sliced at byte offsets; a slice that is out of range
  or off a character boundary is a panic.  The two `while let` loops of `process_inline` are one
  loop with two sets of literals and offsets (`InlineRule`), which carries what makes it end.

  1. **Strings.**  Slices, replacement, trimming and splitting, as far as the renderer uses them.
  2. **Inline formatting.**  `escape_html`, and the loop with its round: the round that finds two
     delimiters leaves two fewer (`occurrences_round`), which is why the loop ends.
  3. **The page.**  The loop over the lines with the two flags of the source.  Each branch has a
     definition, in the order in which the source tests them: fences, lines in a code block,
     table lines, all others.
-/
import Mathlib.Data.Bool.AllAny
import Mathlib.Data.List.DropRight
import PpService.BeatmapId
import PpService.Lib.ByteStr
import PpService.Lib.Loop

namespace PpService

open ByteStr Delim

/-! ## The string functions of the standard library -/

/-- What a string operation of the renderer panics on. -/
inductive Panic where
  | slice
  deriving DecidableEq, Repr

/-- A slice that is no character boundary panics. -/
def orPanic {α : Type} : Option α → Except Panic α
  | some a => .ok a
  | none => .error .slice

/-- `&s[i..]`. -/
def sliceFrom (s : List Char) (i : Nat) : Except Panic (List Char) :=
  orPanic (sliceFrom? Char.utf8Size i s)

/-- `&s[..j]`. -/
def sliceTo (s : List Char) (j : Nat) : Except Panic (List Char) :=
  orPanic (sliceTo? Char.utf8Size j s)

/-- `&s[i..j]`. -/
def slice (s : List Char) (i j : Nat) : Except Panic (List Char) :=
  orPanic (slice? Char.utf8Size i j s)

/-- `str::replace` of a character. -/
def replaceChar (c : Char) (rep : String) (s : List Char) : List Char :=
  s.flatMap fun x => if x = c then rep.toList else [x]

/-- `str::starts_with` of a string. -/
def startsWith (p : String) (s : List Char) : Bool := p.toList.isPrefixOf s

/-- `str::contains` of a string. -/
def contains (p : String) (s : List Char) : Bool := (cut? p.toList s).isSome

/-- `str::trim_matches` of a character. -/
def trimMatches (c : Char) (s : List Char) : List Char :=
  (s.dropWhile (· = c)).rdropWhile (· = c)

/-! ## Inline formatting -/

/-- `escape_html`. -/
def escapeHtml (s : List Char) : List Char :=
  replaceChar '>' "&gt;" (replaceChar '<' "&lt;" (replaceChar '&' "&amp;" s))

/-- The literals and the offsets of one loop of `process_inline`. -/
structure InlineRule where
  delim : List Char
  opening : List Char
  closing : List Char
  /-- Added to an offset to get past one delimiter. -/
  past : Nat
  /-- Added to an offset to get past two. -/
  pastBoth : Nat
  delim_ne : delim ≠ [] := by decide
  opening_ne : opening ≠ [] := by decide
  closing_ne : closing ≠ [] := by decide
  size_delim : size Char.utf8Size delim = past := by decide
  size_both : size Char.utf8Size (delim ++ delim) = pastBoth := by decide
  opening_disjoint : ∀ c ∈ opening, c ∉ delim
  closing_disjoint : ∀ c ∈ closing, c ∉ delim

namespace InlineRule

variable (r : InlineRule)

/-- The body of the loop: the first two delimiters are replaced, or there are no two. -/
def round (result : List Char) : Except Panic (Option (List Char)) :=
  match find? Char.utf8Size r.delim result with
  -- `while let Some(start) = result.find(delim)`
  | none => .ok none
  | some start => do
    let rest ← sliceFrom result (start + r.past)
    match find? Char.utf8Size r.delim rest with
    -- no second delimiter: `break`
    | none => return none
    | some stop =>
      let inner ← slice result (start + r.past) (start + r.past + stop)
      let before ← sliceTo result start
      let after ← sliceFrom result (start + r.pastBoth + stop)
      return some (before ++ r.opening ++ inner ++ r.closing ++ after)

variable {r} {s a b q t : List Char}

/-- `find` fails: the loop ends. -/
theorem round_of_none (h : cut? r.delim s = none) : r.round s = .ok none := by
  rw [round, find?_of_none _ h]

/-- Behind the first delimiter is what comes after its leftmost occurrence. -/
theorem sliceFrom_past (h : cut? r.delim s = some (a, b)) :
    sliceFrom s (size Char.utf8Size a + r.past) = .ok b := by
  have hs : s = (a ++ r.delim) ++ b := by rw [eq_of_cut? h, List.append_assoc]
  have hsize : size Char.utf8Size a + r.past = size Char.utf8Size (a ++ r.delim) := by
    rw [size_append, r.size_delim]
  rw [sliceFrom, hsize, hs, sliceFrom?_size _ Char.utf8Size_pos]
  rfl

/-- The second `find` fails: `break`. -/
theorem round_of_one (h : cut? r.delim s = some (a, b)) (hb : cut? r.delim b = none) :
    r.round s = .ok none := by
  rw [round, find?_of_cut? _ h]
  simp only [sliceFrom_past h, bind, Except.bind, find?_of_none _ hb]
  rfl

/-- The text around the delimiters and between them stays, whatever its characters' widths. -/
theorem round_of_two (h : cut? r.delim s = some (a, b)) (hb : cut? r.delim b = some (q, t)) :
    r.round s = .ok (some (a ++ (r.opening ++ (q ++ (r.closing ++ t))))) := by
  have hpos := Char.utf8Size_pos
  have hs : s = a ++ (r.delim ++ (q ++ (r.delim ++ t))) := by rw [eq_of_cut? h, eq_of_cut? hb]
  -- the offsets of the source are sums of sizes: what stands before the first delimiter, ...
  have hinner : slice s (size Char.utf8Size a + r.past)
      (size Char.utf8Size a + r.past + size Char.utf8Size q) = .ok q := by
    have hsize : size Char.utf8Size a + r.past = size Char.utf8Size (a ++ r.delim) := by
      rw [size_append, r.size_delim]
    rw [slice, hsize, hs, ← List.append_assoc, slice?_size _ hpos]
    rfl
  -- ... up to it, ...
  have hbefore : sliceTo s (size Char.utf8Size a) = .ok a := by
    rw [sliceTo, hs, sliceTo?_size _ hpos]
    rfl
  -- ... and behind the second, where two delimiters are counted at once
  have hafter : sliceFrom s (size Char.utf8Size a + r.pastBoth + size Char.utf8Size q) =
      .ok t := by
    have hsize : size Char.utf8Size a + r.pastBoth + size Char.utf8Size q =
        size Char.utf8Size (a ++ (r.delim ++ (q ++ r.delim))) := by
      have hboth := r.size_both
      simp only [size_append] at hboth ⊢
      omega
    have hsplit : s = (a ++ (r.delim ++ (q ++ r.delim))) ++ t := by rw [hs]; simp
    rw [sliceFrom, hsize, hsplit, sliceFrom?_size _ hpos]
    rfl
  rw [round, find?_of_cut? _ h]
  simp only [sliceFrom_past h, bind, Except.bind, find?_of_cut? _ hb, hinner, hbefore, hafter]
  simp only [List.append_assoc]
  rfl

/-- Two delimiters fewer after every round. -/
theorem occurrences_round (h : r.round s = .ok (some t)) :
    occurrences r.delim s = occurrences r.delim t + 2 := by
  rcases hcut : cut? r.delim s with _ | ⟨a, b⟩
  · -- without two delimiters there is no next round
    rw [round_of_none hcut] at h
    cases h
  · rcases hcut' : cut? r.delim b with _ | ⟨q, u⟩
    · rw [round_of_one hcut hcut'] at h
      cases h
    · rw [round_of_two hcut hcut'] at h
      obtain rfl := Option.some.inj (Except.ok.inj h)
      -- the marks hold no delimiter, so the two that were replaced are gone
      have hinert := inert_of_pair r.delim_ne hcut hcut' r.opening_ne r.closing_ne
        r.opening_disjoint r.closing_disjoint
      have hsplit : a ++ (r.opening ++ (q ++ (r.closing ++ u))) =
          (a ++ (r.opening ++ (q ++ r.closing))) ++ u := by simp
      rw [occurrences_of_cut? r.delim_ne hcut, occurrences_of_cut? r.delim_ne hcut', hsplit,
        hinert.occurrences_append r.delim_ne]

/-- The `while let` loop. -/
def loop (r : InlineRule) : Loop Panic (List Char) where
  round := r.round
  variant := occurrences r.delim
  round_lt := by
    intro s t h
    have := occurrences_round h
    omega

end InlineRule

/-- The first loop. -/
def codeRule : InlineRule where
  delim := ['\x60']
  opening := "<code>".toList
  closing := "</code>".toList
  past := 1
  pastBoth := 2
  opening_disjoint := List.all_iff_forall_prop.mp (by decide)
  closing_disjoint := List.all_iff_forall_prop.mp (by decide)

/-- The second loop. -/
def strongRule : InlineRule where
  delim := "**".toList
  opening := "<strong>".toList
  closing := "</strong>".toList
  past := 2
  pastBoth := 4
  opening_disjoint := List.all_iff_forall_prop.mp (by decide)
  closing_disjoint := List.all_iff_forall_prop.mp (by decide)

/-- `process_inline`. -/
def processInline (s : List Char) : Except Panic (List Char) := do
  let result ← codeRule.loop.run (escapeHtml s)
  strongRule.loop.run result

/-! ## The page -/

/-- What the page starts with. -/
def htmlHead : List Char :=
  ("<!DOCTYPE html>\n<html>\n<head>\n<meta charset=\"utf-8\">\n" ++
    "<meta name=\"viewport\" content=\"width=device-width, initial-scale=1\">\n" ++
    "<title>rosu-pp-service docs</title>\n<style>\n" ++
    "body \x7b font-family: -apple-system, BlinkMacSystemFont, 'Segoe UI', Helvetica, Arial, " ++
    "sans-serif; line-height: 1.6; max-width: 900px; margin: 0 auto; padding: 2rem; " ++
    "color: #24292f; background: #fff; \x7d\n" ++
    "h1, h2, h3 \x7b border-bottom: 1px solid #d0d7de; padding-bottom: 0.3em; " ++
    "margin-top: 1.5em; \x7d\n" ++
    "h1 \x7b font-size: 2em; \x7d\n" ++
    "h2 \x7b font-size: 1.5em; \x7d\n" ++
    "code \x7b background: #f6f8fa; padding: 0.2em 0.4em; border-radius: 6px; " ++
    "font-size: 85%; \x7d\n" ++
    "pre \x7b background: #161b22; color: #c9d1d9; padding: 1rem; border-radius: 6px; " ++
    "overflow-x: auto; \x7d\n" ++
    "pre code \x7b background: none; padding: 0; color: inherit; \x7d\n" ++
    "table \x7b border-collapse: collapse; width: 100%; margin: 1em 0; \x7d\n" ++
    "th, td \x7b border: 1px solid #d0d7de; padding: 0.5em 1em; text-align: left; \x7d\n" ++
    "th \x7b background: #f6f8fa; \x7d\n" ++
    "hr \x7b border: none; border-top: 1px solid #d0d7de; margin: 2em 0; \x7d\n" ++
    "a \x7b color: #0969da; text-decoration: none; \x7d\n" ++
    "a:hover \x7b text-decoration: underline; \x7d\n" ++
    "blockquote \x7b border-left: 4px solid #d0d7de; margin: 0; padding-left: 1em; " ++
    "color: #57606a; \x7d\n" ++
    "</style>\n</head>\n<body>\n").toList

/-- What the page ends with. -/
def htmlTail : List Char := "</body></html>".toList

/-- The variables of the loop over the lines. -/
structure Renderer where
  html : List Char
  inCodeBlock : Bool
  inTable : Bool
  deriving DecidableEq, Repr

/-- `html.push_str`. -/
def Renderer.push (r : Renderer) (s : List Char) : Renderer := { r with html := r.html ++ s }

/-- The cells of a table line. -/
def cellsOf (line : List Char) : List (List Char) :=
  ((trimMatches '|' line).splitOn '|').map trim

/-- A line that starts or ends a code block. -/
def isFence (line : List Char) : Bool := startsWith "\x60\x60\x60" line

/-- A line that is a table's, outside code blocks. -/
def isTableLine (line : List Char) : Bool := startsWith "|" line && line.getLast? = some '|'

/-- The lines of a table that are taken for a separator. -/
def isSeparatorLine (line : List Char) : Bool := contains "---" line

/-- What a table row adds to the page. -/
def renderCell (tag : String) (cell : List Char) : List Char :=
  "<".toList ++ tag.toList ++ ">".toList ++ escapeHtml cell ++ "</".toList ++ tag.toList ++
    ">".toList

/-- The branch of the table lines. -/
def renderTableLine (r : Renderer) (line : List Char) : Renderer :=
  -- `continue` comes before the flag is set
  if isSeparatorLine line then r
  else
    -- the first row of a table is its header
    let isHeader := !r.inTable
    let r := if !r.inTable then { r.push "<table>\n".toList with inTable := true } else r
    let tag := if isHeader then "th" else "td"
    let cells := (cellsOf line).flatMap (renderCell tag)
    ((r.push "<tr>".toList).push cells).push "</tr>\n".toList

/-- The branches of the other lines, outside code blocks and tables. -/
def renderPlainLine (r : Renderer) (line : List Char) : Except Panic Renderer := do
  -- the tests in the order of the source: headings, rule, items, blank line, paragraph
  if startsWith "# " line then
    return r.push ("<h1>".toList ++ escapeHtml (← sliceFrom line 2) ++ "</h1>\n".toList)
  else if startsWith "## " line then
    return r.push ("<h2>".toList ++ escapeHtml (← sliceFrom line 3) ++ "</h2>\n".toList)
  else if startsWith "### " line then
    return r.push ("<h3>".toList ++ escapeHtml (← sliceFrom line 4) ++ "</h3>\n".toList)
  else if startsWith "---" line then
    return r.push "<hr>\n".toList
  else if startsWith "- " line || startsWith "* " line then
    return r.push ("<li>".toList ++ (← processInline (← sliceFrom line 2)) ++ "</li>\n".toList)
  else if line = [] then
    return r.push "<br>\n".toList
  else
    return r.push ("<p>".toList ++ (← processInline line) ++ "</p>\n".toList)

/-- The body of the loop. -/
def renderLine (r : Renderer) (line : List Char) : Except Panic Renderer :=
  if isFence line then
    -- a fence turns the flag, whatever stands behind it
    if r.inCodeBlock then
      .ok { r.push "</code></pre>\n".toList with inCodeBlock := false }
    else
      .ok { r.push "<pre><code>".toList with inCodeBlock := true }
  else if r.inCodeBlock then
    -- the escapes are written out in this branch of the source
    let escaped := replaceChar '>' "&gt;" (replaceChar '<' "&lt;" (replaceChar '&' "&amp;" line))
    .ok (r.push (escaped ++ "\n".toList))
  else if isTableLine line then
    .ok (renderTableLine r line)
  else
    -- an open table ends here
    renderPlainLine
      (if r.inTable then { r.push "</table>\n".toList with inTable := false } else r) line

/-- The loop over the lines. -/
def renderLines (ls : List (List Char)) : Except Panic Renderer :=
  ls.foldlM renderLine { html := htmlHead, inCodeBlock := false, inTable := false }

/-- `render_markdown`. -/
def renderMarkdown (md : List Char) : Except Panic (List Char) := do
  let r ← renderLines (lines md)
  -- a table that is open at the end is closed, a code block is not
  let r := if r.inTable then r.push "</table>\n".toList else r
  return (r.push htmlTail).html

end PpService
