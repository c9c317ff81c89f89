/-
  WHAT THE PAGE SAYS: `render_markdown` read back, against its source.

  `Markup.shown` reads a page as a reader does, without the tags and with the entities as the
  characters they are.

  1. **Content.**  White space and the characters the renderer takes for markup aside, the page
     shows the characters of the source in their order, except those of the lines it drops: fences,
     separators of tables and rules (`renderMarkdown_shows_content`).  A line adds what it has to
     the page (`Step.content`), and the page is made of what the lines add.
  2. **Code blocks** are opaque: the lines between two fences appear as they are, with nothing of
     them taken for markup, and the rest of the page is the one without the block
     (`renderMarkdown_code_block`).

  A page is read with `Markup.shown`, which shows of a spelled word its characters
  (`Markup.shown_spell`), so both results are about the characters of words: what `Step` adds in
  each of its eight cases, and what trimming, splitting and cutting off a prefix can lose, which
  is white space and markup (`content_trim`, `content_splitOn`, `content_drop`).
-/
import PpService.MarkdownPage

namespace PpService

open Delim Markup

/-! ## Content -/

/-- Neither white space nor a character that the renderer takes for markup. -/
def isContent (c : Char) : Bool := !(isWhitespace c || ['#', '-', '*', '|', '\x60'].contains c)

/-- The content of a text. -/
def content (s : List Char) : List Char := s.filter isContent

/-- Content goes character by character. -/
@[simp] theorem content_append (s t : List Char) : content (s ++ t) = content s ++ content t :=
  List.filter_append s t

theorem content_cons (c : Char) (s : List Char) : content (c :: s) = content [c] ++ content s :=
  content_append [c] s

theorem isContent_of_isWhitespace {c : Char} (h : isWhitespace c) : isContent c = false := by
  rw [isContent, h]
  rfl

theorem content_eq_nil {s : List Char} (h : ∀ c ∈ s, isContent c = false) : content s = [] :=
  List.filter_eq_nil_iff.mpr fun c hc => by rw [h c hc]; exact Bool.false_ne_true

/-- Trimming loses no content. -/
theorem content_dropWhile {p : Char → Bool} (hp : ∀ c, p c → isContent c = false)
    (s : List Char) : content (s.dropWhile p) = content s := by
  have htake : content (s.takeWhile p) = [] :=
    content_eq_nil fun c hc => hp c (List.mem_takeWhile_imp hc)
  calc content (s.dropWhile p) = content (s.takeWhile p) ++ content (s.dropWhile p) := by
        rw [htake, List.nil_append]
    _ = content s := by rw [← content_append, List.takeWhile_append_dropWhile]

/-- Nor does trimming at the end. -/
theorem content_rdropWhile {p : Char → Bool} (hp : ∀ c, p c → isContent c = false)
    (s : List Char) : content (s.rdropWhile p) = content s := by
  have hreverse : content ((s.reverse.dropWhile p).reverse) = (content s.reverse).reverse := by
    rw [content, List.filter_reverse]
    exact congrArg List.reverse (content_dropWhile hp s.reverse)
  rw [List.rdropWhile, hreverse, content, List.filter_reverse, List.reverse_reverse]
  rfl

/-- So `str::trim` loses no content. -/
theorem content_trim (s : List Char) : content (trim s) = content s := by
  have hp : ∀ c, isWhitespace c → isContent c = false := fun c => isContent_of_isWhitespace
  rw [trim, content_rdropWhile hp, content_dropWhile hp]

theorem content_trimMatches {c : Char} (hc : isContent c = false) (s : List Char) :
    content (trimMatches c s) = content s := by
  have hp : ∀ d, decide (d = c) → isContent d = false := by
    intro d hd
    rwa [of_decide_eq_true hd]
  rw [trimMatches, content_rdropWhile hp, content_dropWhile hp]

/-- Splitting at a character that is none loses no content. -/
theorem content_splitOn {c : Char} (hc : isContent c = false) (s : List Char) :
    (s.splitOn c).flatMap content = content s := by
  induction s with
  | nil => rfl
  | cons x s ih =>
    obtain ⟨p, ps, hp⟩ := List.exists_cons_of_ne_nil (List.splitOn_ne_nil c s)
    rw [hp, List.flatMap_cons] at ih
    rw [List.splitOn_cons_eq_if_modifyHead, hp, content_cons]
    split_ifs with hx
    · -- the separator is lost, and it is no content
      have hnone : content [x] = [] := content_eq_nil (by simpa [← eq_of_beq hx] using hc)
      rw [List.flatMap_cons, List.flatMap_cons, ih, hnone]
      rfl
    · -- any other character stays in its piece
      rw [List.modifyHead_cons, List.flatMap_cons, content_cons, List.append_assoc, ih]

/-- A carriage return at the end of a line is white space. -/
theorem content_stripCr (l : List Char) : content (stripCr l) = content l := by
  rw [stripCr]
  split_ifs with hcr
  · -- a carriage return is taken off the end
    obtain ⟨front, rfl⟩ := List.getLast?_eq_some_iff.mp hcr
    rw [List.dropLast_concat, content_append]
    exact (List.append_nil _).symm
  · rfl

/-- **Splitting into lines loses no content**: the line ends are white space. -/
theorem content_lines (s : List Char) : (lines s).flatMap content = content s := by
  have hne := List.splitOn_ne_nil '\n' s
  have hlast : (s.splitOn '\n').getLastD [] = (s.splitOn '\n').getLast hne := by
    rw [List.getLastD_eq_getLast?, List.getLast?_eq_some_getLast hne, Option.getD_some]
  -- a last line that is empty is left out
  have hend : ∀ l : List Char, (if l = [] then [] else [l]).flatMap content = content l := by
    intro l
    split_ifs with hnil
    · rw [hnil]
      rfl
    · exact List.flatMap_singleton _ _
  calc (lines s).flatMap content
      = (s.splitOn '\n').dropLast.flatMap content ++ content ((s.splitOn '\n').getLast hne) := by
        rw [lines, List.flatMap_append, hend, hlast, List.flatMap_map,
          List.flatMap_congr fun l _ => content_stripCr l]
    _ = ((s.splitOn '\n').dropLast ++ [(s.splitOn '\n').getLast hne]).flatMap content := by
        rw [List.flatMap_append, List.flatMap_singleton]
    _ = (s.splitOn '\n').flatMap content := by rw [List.dropLast_append_getLast hne]
    _ = content s := content_splitOn (by decide) s

/-! ## What a line adds -/

/-- The content of the text of a word, symbol by symbol. -/
theorem content_text (w : List Sym) :
    content (text w) = w.flatMap fun x => content (text [x]) := by
  induction w with
  | nil => rfl
  | cons x w ih =>
    have hcons : text (x :: w) = text [x] ++ text w := text_append [x] w
    rw [hcons, content_append, ih, List.flatMap_cons]

theorem content_newline : content (text newline) = [] := by decide

/-- Formatting turns delimiters into tags, and neither is content. -/
theorem content_inlineWord (s : List Char) : content (text (inlineWord s)) = content s := by
  rw [content_text, inlineWord, flatMap_wrap strongRule.word_delim_ne (by decide) (by decide)
    (by decide), codeWord, flatMap_wrap codeRule.word_delim_ne (by decide) (by decide) (by decide),
    ← content_text, text_word]

/-- A row shows the content of its line: what is lost are the pipes and the white space around the
    cells. -/
theorem content_rowWord (n : Name) (line : List Char) :
    content (text (rowWord n line)) = content line := by
  have hcells : text ((cellsOf line).flatMap fun c => element n (word c)) =
      (cellsOf line).flatMap id := by
    rw [text_flatMap]
    exact List.flatMap_congr fun c _ => by rw [text_element, text_word]; rfl
  have hcontent : ∀ l : List (List Char), content (l.flatMap id) = l.flatMap content := by
    intro l
    rw [content, List.filter_flatMap]
    rfl
  rw [rowWord, text_append, text_element, content_append, content_newline, List.append_nil, hcells,
    hcontent, cellsOf, List.flatMap_map, List.flatMap_congr fun c _ => content_trim c,
    content_splitOn (by decide), content_trimMatches (by decide)]

/-- The lines that leave nothing on the page but a tag: fences with whatever stands behind them,
    table separators, and rules. -/
def Mode.drops (m : Mode) (line : List Char) : Bool :=
  isFence line || !m.inCodeBlock &&
    if isTableLine line then isSeparatorLine line else startsWith "---" line

/-- What is left of a line behind a prefix that is markup. -/
theorem content_drop {p : String} {line : List Char} {n : Nat} (h : startsWith p line)
    (hlen : p.toList.length = n) (hp : content p.toList = []) :
    content (line.drop n) = content line := by
  obtain ⟨rest, rfl⟩ := List.isPrefixOf_iff_prefix.mp h
  rw [← hlen, List.drop_left, content_append, hp, List.nil_append]

/-- A line outside code blocks and tables shows its content, unless it is a rule. -/
theorem content_plainWord (line : List Char) :
    content (text (plainWord line)) = if startsWith "---" line then [] else content line := by
  have hline : ∀ n w, content (text (element n w ++ newline)) = content (text w) := by
    intro n w
    rw [text_append, text_element, content_append, content_newline, List.append_nil]
  have hhash : ∀ p : String, p.toList.head? = some '#' → startsWith p line →
      startsWith "---" line = false := by
    intro p hp h
    obtain ⟨rest, rfl⟩ := List.isPrefixOf_iff_prefix.mp h
    obtain ⟨q, hq⟩ := List.head?_eq_some_iff.mp hp
    rw [hq]
    rfl
  rw [plainWord]
  split_ifs with h1 h1r h2 h2r h3 h3r hrule hitem hblank
  · rw [hhash _ (by decide) h1] at h1r
    cases h1r
  · -- the marker of a heading is no content
    rw [hline, text_word, content_drop h1 (by decide) (by decide)]
  · rw [hhash _ (by decide) h2] at h2r
    cases h2r
  · rw [hline, text_word, content_drop h2 (by decide) (by decide)]
  · rw [hhash _ (by decide) h3] at h3r
    cases h3r
  · rw [hline, text_word, content_drop h3 (by decide) (by decide)]
  · -- the rule: nothing is shown of it
    exact content_newline
  · -- an item behind one of the two markers
    rw [hline, content_inlineWord]
    rcases (Bool.or_eq_true _ _).mp hitem with hdash | hstar
    · exact content_drop hdash (by decide) (by decide)
    · exact content_drop hstar (by decide) (by decide)
  · -- the blank line
    rw [hblank]
    exact content_newline
  · rw [hline, content_inlineWord]

/-- A line that is not dropped adds its content to the page, and a line that is adds none. -/
theorem Step.content {line : List Char} {m m' : Mode} {w : List Sym} (h : Step line m m' w) :
    content (text w) = if m.drops line then [] else PpService.content line := by
  cases h with
  | openFence t hfence =>
    -- a fence is dropped, whichever way it turns
    rw [Mode.drops, hfence]
    rfl
  | closeFence t hfence =>
    rw [Mode.drops, hfence]
    exact content_newline
  | code t hfence =>
    -- a line of code is shown as it is
    rw [Mode.drops, hfence, text_append, text_word, content_append, content_newline,
      List.append_nil]
    rfl
  | separator t htable hsep =>
    -- a separator is dropped
    rw [Mode.drops, isFence_of_isTableLine htable, if_pos htable, hsep]
    rfl
  | firstRow htable hsep =>
    have hopen : PpService.content (text openTable) = [] := by decide
    rw [Mode.drops, isFence_of_isTableLine htable, if_pos htable, hsep, text_append, content_append,
      hopen, content_rowWord]
    rfl
  | row htable hsep =>
    rw [Mode.drops, isFence_of_isTableLine htable, if_pos htable, hsep, content_rowWord]
    rfl
  | plain hfence htable =>
    rw [Mode.drops, hfence, htable, content_plainWord]
    rfl
  | plainAfter hfence htable =>
    have hclose : PpService.content (text closeTable) = [] := by decide
    rw [Mode.drops, hfence, htable, text_append, content_append, hclose, content_plainWord]
    rfl

/-! ## The page -/

/-- The content of the lines that are not dropped. -/
def Mode.kept (m : Mode) : List (List Char) → List Char
  | [] => []
  | line :: ls => (if m.drops line then [] else content line) ++ (m.next line).kept ls

/-- The content of the page is that of the lines that are not dropped. -/
theorem content_page (m : Mode) (ls : List (List Char)) :
    content (text (m.page ls)) = m.kept ls := by
  induction m, ls using Mode.line_induction with
  | nil m =>
    obtain ⟨inCodeBlock, inTable⟩ := m
    cases inTable <;> rfl
  | cons m m' line w ls hnext hstep hpage ih =>
    rw [hpage, text_append, content_append, hstep.content, ih, ← hnext, Mode.kept]

/-- It is part of the content of the lines, in their order. -/
theorem Mode.kept_sublist (m : Mode) (ls : List (List Char)) :
    (m.kept ls).Sublist (ls.flatMap content) := by
  induction ls generalizing m with
  | nil => exact List.Sublist.slnil
  | cons line ls ih =>
    rw [kept, List.flatMap_cons]
    refine List.Sublist.append ?_ (ih _)
    split_ifs
    · exact List.nil_sublist _
    · exact List.Sublist.refl _

/-- Nothing is lost if and only if no dropped line has any content. -/
theorem Mode.kept_eq_iff (m : Mode) (ls : List (List Char)) :
    m.kept ls = ls.flatMap content ↔
      ∀ before line after, ls = before ++ line :: after → (m.after before).drops line →
        content line = [] := by
  induction ls generalizing m with
  | nil => simp [kept]
  | cons line ls ih =>
    have hrest := ih (m.next line)
    have hsub := (m.next line).kept_sublist ls
    rw [kept, List.flatMap_cons]
    constructor
    · intro heq before l after hl hdrops
      by_cases hdrop : m.drops line
      · -- the line is dropped: its content has to make up for nothing
        rw [if_pos hdrop, List.nil_append] at heq
        have hlen := congrArg List.length heq
        rw [List.length_append] at hlen
        have hle := hsub.length_le
        have hempty : content line = [] := List.eq_nil_of_length_eq_zero (by omega)
        rw [hempty, List.nil_append] at heq
        cases before with
        | nil => rwa [← (List.cons.inj hl).1]
        | cons b before =>
          obtain ⟨rfl, rfl⟩ := List.cons.inj hl
          exact hrest.mp heq before l after rfl hdrops
      · -- the line is kept: it takes nothing from the rest
        rw [if_neg hdrop] at heq
        cases before with
        | nil =>
          rw [← (List.cons.inj hl).1] at hdrops
          exact absurd hdrops hdrop
        | cons b before =>
          obtain ⟨rfl, rfl⟩ := List.cons.inj hl
          exact hrest.mp (List.append_cancel_left heq) before l after rfl hdrops
    · intro hall
      -- where no dropped line has content, the rest loses nothing
      have htail : (m.next line).kept ls = ls.flatMap content :=
        hrest.mpr fun before l after hl hdrops =>
          hall (line :: before) l after (congrArg (line :: ·) hl) hdrops
      rw [htail]
      split_ifs with hdrop
      · rw [hall [] line ls rfl hdrop]
      · rfl

/-- What the body of a page shows. -/
theorem shown_page (m : Mode) (ls : List (List Char)) :
    shown (spell (m.page ls)) = text (m.page ls) := by
  have h := shown_spell (m.page ls) []
  rwa [List.append_nil, show shown [] = [] from rfl, List.append_nil] at h

/-- **The page says what its source says.**  White space and markup characters aside, nothing is
    invented or moved, and nothing is lost if and only if the lines that are dropped have nothing
    to lose: no info string of a fence, no text in a separator or rule. -/
theorem renderMarkdown_shows_content (md : List Char) :
    ∃ body, renderMarkdown md = .ok (htmlHead ++ body ++ htmlTail) ∧
      (content (shown body)).Sublist (content md) ∧
      (content (shown body) = content md ↔
        ∀ before line after, lines md = before ++ line :: after →
          (Mode.start.after before).drops line → content line = []) := by
  refine ⟨_, renderMarkdown_eq_spell md, ?_, ?_⟩
  · rw [shown_page, content_page, ← content_lines md]
    exact Mode.start.kept_sublist (lines md)
  · rw [shown_page, content_page, ← content_lines md]
    exact Mode.start.kept_eq_iff (lines md)

/-! ## Code blocks -/

theorem Mode.page_append (m : Mode) (ls ks : List (List Char)) :
    m.page (ls ++ ks) = m.emitAll ls ++ (m.after ls).page ks := by
  rw [page, emitAll_append, after_append, List.append_assoc, page]

/-- The text of a code block. -/
def codeText (code : List (List Char)) : List Char := code.flatMap fun line => line ++ "\n".toList

/-- Within a code block the lines are added as they are, and the mode stays. -/
theorem emitAll_code {t : Bool} {code : List (List Char)} (h : ∀ l ∈ code, isFence l = false) :
    Mode.emitAll ⟨true, t⟩ code = word (codeText code) ∧ Mode.after ⟨true, t⟩ code = ⟨true, t⟩ := by
  induction code with
  | nil => exact ⟨rfl, rfl⟩
  | cons line code ih =>
    obtain ⟨hemit, hafter⟩ := ih fun l hl => h l (List.mem_cons_of_mem line hl)
    have hline := h line List.mem_cons_self
    have hnext : Mode.next ⟨true, t⟩ line = ⟨true, t⟩ := by rw [Mode.next, hline]; rfl
    constructor
    · -- the line as it is, then the others
      rw [Mode.emitAll, hnext, hemit, Mode.emit, hline]
      simp [codeText, word, newline]
    · show Mode.after (Mode.next ⟨true, t⟩ line) code = _
      rw [hnext, hafter]

/-- What a code block adds to the page: its lines as they are, and the renderer goes on as if
    it had not been there. -/
theorem emitAll_block {m : Mode} {opening closing : List Char} {code : List (List Char)}
    (hmode : m.inCodeBlock = false) (hopening : isFence opening) (hclosing : isFence closing)
    (hcode : ∀ l ∈ code, isFence l = false) :
    m.emitAll (opening :: code ++ [closing]) =
        [.tag (.op preName), .tag (.op codeName)] ++ word (codeText code) ++
          .tag (.cl codeName) :: .tag (.cl preName) :: newline ∧
      m.after (opening :: code ++ [closing]) = m := by
  obtain ⟨inCodeBlock, t⟩ := m
  obtain rfl : inCodeBlock = false := hmode
  obtain ⟨hemit, hafter⟩ := emitAll_code (t := t) hcode
  have hopen : Mode.next ⟨false, t⟩ opening = ⟨true, t⟩ := by rw [Mode.next, hopening]; rfl
  have hclose : Mode.next ⟨true, t⟩ closing = ⟨false, t⟩ := by rw [Mode.next, hclosing]; rfl
  constructor
  · rw [List.cons_append, Mode.emitAll, hopen, Mode.emitAll_append, hemit, hafter, Mode.emitAll,
      Mode.emitAll, Mode.emit, hopening, Mode.emit, hclosing, List.append_nil, List.append_assoc]
    rfl
  · show Mode.after (Mode.next ⟨false, t⟩ opening) (code ++ [closing]) = _
    rw [hopen, Mode.after_append, hafter]
    exact hclose

/-- **Code blocks are opaque.**  The page of a text with a code block is the page without it, with
    the block put in: it has no markup inside, and shows the lines between the fences as they
    are. -/
theorem renderMarkdown_code_block {md md' opening closing : List Char}
    {before code after : List (List Char)}
    (hmd : lines md = before ++ (opening :: code ++ [closing]) ++ after)
    (hmd' : lines md' = before ++ after) (hmode : (Mode.start.after before).inCodeBlock = false)
    (hopening : isFence opening) (hclosing : isFence closing)
    (hcode : ∀ l ∈ code, isFence l = false) :
    ∃ front inside back,
      renderMarkdown md' = .ok (htmlHead ++ (front ++ back) ++ htmlTail) ∧
      renderMarkdown md = .ok (htmlHead ++ (front ++ "<pre><code>".toList ++ inside ++
        "</code></pre>\n".toList ++ back) ++ htmlTail) ∧
      tags inside = [] ∧ shown inside = codeText code := by
  obtain ⟨hblock, hafter⟩ := emitAll_block hmode hopening hclosing hcode
  have hopen : spell [.tag (.op preName), .tag (.op codeName)] = "<pre><code>".toList := by decide
  have hclose : spell (.tag (.cl codeName) :: .tag (.cl preName) :: newline) =
      "</code></pre>\n".toList := by decide
  refine ⟨spell (Mode.start.emitAll before), spell (word (codeText code)),
    spell ((Mode.start.after before).page after), ?_, ?_, ?_, ?_⟩
  · -- the text without the block
    rw [renderMarkdown_eq_spell, hmd', Mode.page_append, spell_append]
  · -- with it: the mode behind the block is the one before it
    rw [renderMarkdown_eq_spell, hmd, Mode.page_append, Mode.emitAll_append, Mode.after_append,
      hblock, hafter]
    simp only [spell_append, hopen, hclose, List.append_assoc]
  · -- the inside has no tags, and shows the lines of code
    rw [tags_spell, labels_word]
  · have h := shown_spell (word (codeText code)) []
    rwa [List.append_nil, text_word, show shown [] = [] from rfl, List.append_nil] at h

/-- A block that reads like markup. -/
theorem renderMarkdown_code_block_of_tags :
    ∃ front inside back,
      renderMarkdown "a\nb".toList = .ok (htmlHead ++ (front ++ back) ++ htmlTail) ∧
      renderMarkdown "a\n\x60\x60\x60\n# <b>\n\x60\x60\x60\nb".toList =
        .ok (htmlHead ++ (front ++ "<pre><code>".toList ++ inside ++
          "</code></pre>\n".toList ++ back) ++ htmlTail) ∧
      tags inside = [] ∧ shown inside = codeText ["# <b>".toList] := by
  have hmd : lines "a\n\x60\x60\x60\n# <b>\n\x60\x60\x60\nb".toList = ["a".toList] ++
      ("\x60\x60\x60".toList :: ["# <b>".toList] ++ ["\x60\x60\x60".toList]) ++ ["b".toList] := by
    decide
  exact renderMarkdown_code_block hmd (by decide) (by decide) (by decide) (by decide) (by decide)

end PpService
