/-
  THE PAGE AS TAGGED TEXT: `render_markdown` reads line after line in one of four modes and adds
  a word of characters and tags to the page; the page is the spelling of the words
  (`renderMarkdown_eq_spell`).

  So no character of the source becomes markup.  What is open between two lines follows from the
  mode, and a code block that is open at the end is the one thing that stays open.

  1. **Words of the page.**  `Mode` is the two flags of the renderer, and `Step` what a line can
     do in it: eight ways, of which the flags and the tests of the line choose one
     (`Mode.step`).  Everything that is proved of the page is proved step for step, by
     `Mode.line_induction`.
  2. **Spelling.**  One round of the source's loop adds the spelling of what the line adds
     (`renderLine_eq_spell`), and no slice behind a marker panics.
  3. **Nesting.**  `Settles` says that a word leads from one stack of open blocks to another; the
     stack between two lines is the mode's (`Mode.stack`).  So the blocks are closed at the end
     if and only if the fences come in pairs (`renderMarkdown_balanced_iff`).
-/
import PpService.MarkdownInline

namespace PpService

open ByteStr Delim Markup

/-! ## Words of the page -/

def tableName : Name := ⟨"table".toList, by decide⟩
def trName : Name := ⟨"tr".toList, by decide⟩
def thName : Name := ⟨"th".toList, by decide⟩
def tdName : Name := ⟨"td".toList, by decide⟩
def preName : Name := ⟨"pre".toList, by decide⟩
def h1Name : Name := ⟨"h1".toList, by decide⟩
def h2Name : Name := ⟨"h2".toList, by decide⟩
def h3Name : Name := ⟨"h3".toList, by decide⟩
def liName : Name := ⟨"li".toList, by decide⟩
def pName : Name := ⟨"p".toList, by decide⟩
def hrName : Name := ⟨"hr".toList, by decide⟩
def brName : Name := ⟨"br".toList, by decide⟩

/-- Every line of the page but the opening of a code block ends in one. -/
def newline : List Sym := word "\n".toList

/-- The flags of the renderer: inside a code block, inside a table.  All four combinations occur, as
    a fence may come in a table. -/
structure Mode where
  inCodeBlock : Bool
  inTable : Bool
  deriving DecidableEq, Repr

/-- The state of the renderer without the page written so far. -/
def Renderer.mode (r : Renderer) : Mode := ⟨r.inCodeBlock, r.inTable⟩

/-- `render_markdown` starts outside code blocks and tables. -/
def Mode.start : Mode := ⟨false, false⟩

/-- The mode after a line. -/
def Mode.next (m : Mode) (line : List Char) : Mode :=
  if isFence line then { m with inCodeBlock := !m.inCodeBlock }
  else if m.inCodeBlock then m
  else if isTableLine line then
    if isSeparatorLine line then m else { m with inTable := true }
  else { m with inTable := false }

/-- The mode after some lines. -/
def Mode.after (m : Mode) (ls : List (List Char)) : Mode := ls.foldl Mode.next m

/-- The cells of a row. -/
def rowWord (n : Name) (line : List Char) : List Sym :=
  element trName ((cellsOf line).flatMap fun c => element n (word c)) ++ newline

/-- A line that is no table's, outside code blocks. -/
def plainWord (line : List Char) : List Sym :=
  if startsWith "# " line then element h1Name (word (line.drop 2)) ++ newline
  else if startsWith "## " line then element h2Name (word (line.drop 3)) ++ newline
  else if startsWith "### " line then element h3Name (word (line.drop 4)) ++ newline
  else if startsWith "---" line then .tag (.op hrName) :: newline
  else if startsWith "- " line || startsWith "* " line then
    element liName (inlineWord (line.drop 2)) ++ newline
  else if line = [] then .tag (.op brName) :: newline
  else element pName (inlineWord line) ++ newline

/-- Such a line is an element of text, an element of formatted text, or a tag by itself. -/
theorem plainWord_cases (line : List Char) :
    (∃ n ∈ [h1Name, h2Name, h3Name], ∃ s, plainWord line = element n (word s) ++ newline) ∨
      (∃ n ∈ [liName, pName], ∃ s, plainWord line = element n (inlineWord s) ++ newline) ∨
      ∃ n ∈ [hrName, brName], plainWord line = .tag (.op n) :: newline := by
  rw [plainWord]
  split_ifs
  · -- three headings, whose text is only escaped
    exact .inl ⟨h1Name, by simp, _, rfl⟩
  · exact .inl ⟨h2Name, by simp, _, rfl⟩
  · exact .inl ⟨h3Name, by simp, _, rfl⟩
  · -- the rule
    exact .inr (.inr ⟨hrName, by simp, rfl⟩)
  · -- the list item, whose text is formatted
    exact .inr (.inl ⟨liName, by simp, _, rfl⟩)
  · -- the blank line
    exact .inr (.inr ⟨brName, by simp, rfl⟩)
  · -- everything else is a paragraph
    exact .inr (.inl ⟨pName, by simp, _, rfl⟩)

/-- What the first row of a table puts in front of itself. -/
def openTable : List Sym := .tag (.op tableName) :: newline

/-- What the first line after a table puts in front of itself. -/
def closeTable : List Sym := .tag (.cl tableName) :: newline

/-- What a line adds to the page. -/
def Mode.emit (m : Mode) (line : List Char) : List Sym :=
  if isFence line then
    if m.inCodeBlock then .tag (.cl codeName) :: .tag (.cl preName) :: newline
    else [.tag (.op preName), .tag (.op codeName)]
  else if m.inCodeBlock then word line ++ newline
  else if isTableLine line then
    if isSeparatorLine line then []
    else if m.inTable then rowWord tdName line
    else openTable ++ rowWord thName line
  else if m.inTable then closeTable ++ plainWord line
  else plainWord line

/-- What some lines add to the page, each in the mode that the ones before it have left. -/
def Mode.emitAll (m : Mode) : List (List Char) → List Sym
  | [] => []
  | line :: ls => m.emit line ++ (m.next line).emitAll ls

/-- What comes after the last line. -/
def Mode.epilogue (m : Mode) : List Sym := if m.inTable then closeTable else []

/-- The rest of the page. -/
def Mode.page (m : Mode) (ls : List (List Char)) : List Sym :=
  m.emitAll ls ++ (m.after ls).epilogue

theorem Mode.page_cons (m : Mode) (line : List Char) (ls : List (List Char)) :
    m.page (line :: ls) = m.emit line ++ (m.next line).page ls := by
  rw [page, emitAll, List.append_assoc, page]
  rfl

/-- What two groups of lines add: the second starts in the mode that the first has left. -/
theorem Mode.emitAll_append (m : Mode) (ls ks : List (List Char)) :
    m.emitAll (ls ++ ks) = m.emitAll ls ++ (m.after ls).emitAll ks := by
  induction ls generalizing m with
  | nil => rfl
  | cons line ls ih =>
    rw [List.cons_append, emitAll, ih, emitAll, List.append_assoc]
    rfl

theorem Mode.after_append (m : Mode) (ls ks : List (List Char)) :
    m.after (ls ++ ks) = (m.after ls).after ks :=
  List.foldl_append

/-- A fence line is no table's. -/
theorem isFence_of_isTableLine {line : List Char} (h : isTableLine line) :
    isFence line = false := by
  obtain ⟨hpipe, -⟩ := (Bool.and_eq_true _ _).mp h
  obtain ⟨rest, rfl⟩ := List.isPrefixOf_iff_prefix.mp hpipe
  rfl

/-- All that a line can do: the mode before it, the mode after it, and what it adds.  The premises
    are the tests of the source that lead there. -/
inductive Step (line : List Char) : Mode → Mode → List Sym → Prop
  | openFence (t : Bool) (hfence : isFence line) :
      Step line ⟨false, t⟩ ⟨true, t⟩ [.tag (.op preName), .tag (.op codeName)]
  | closeFence (t : Bool) (hfence : isFence line) :
      Step line ⟨true, t⟩ ⟨false, t⟩ (.tag (.cl codeName) :: .tag (.cl preName) :: newline)
  | code (t : Bool) (hfence : isFence line = false) :
      Step line ⟨true, t⟩ ⟨true, t⟩ (word line ++ newline)
  | separator (t : Bool) (htable : isTableLine line) (hsep : isSeparatorLine line) :
      Step line ⟨false, t⟩ ⟨false, t⟩ []
  | firstRow (htable : isTableLine line) (hsep : isSeparatorLine line = false) :
      Step line ⟨false, false⟩ ⟨false, true⟩ (openTable ++ rowWord thName line)
  | row (htable : isTableLine line) (hsep : isSeparatorLine line = false) :
      Step line ⟨false, true⟩ ⟨false, true⟩ (rowWord tdName line)
  | plain (hfence : isFence line = false) (htable : isTableLine line = false) :
      Step line ⟨false, false⟩ ⟨false, false⟩ (plainWord line)
  | plainAfter (hfence : isFence line = false) (htable : isTableLine line = false) :
      Step line ⟨false, true⟩ ⟨false, false⟩ (closeTable ++ plainWord line)

/-- **Every line takes one of the eight steps**: the flags before it and the tests on it decide
    which, in the order in which `render_markdown` asks. -/
theorem Mode.step (m : Mode) (line : List Char) : Step line m (m.next line) (m.emit line) := by
  obtain ⟨inCodeBlock, inTable⟩ := m
  rw [emit, next]
  split_ifs with hfence hcode hcode' hrow hsep htable htable'
  · -- a fence inside a code block
    obtain rfl : inCodeBlock = true := hcode
    exact .closeFence inTable hfence
  · -- a fence outside
    obtain rfl : inCodeBlock = false := Bool.eq_false_iff.mpr hcode
    exact .openFence inTable hfence
  · -- any other line inside
    obtain rfl : inCodeBlock = true := hcode'
    exact .code inTable (Bool.eq_false_iff.mpr hfence)
  · obtain rfl : inCodeBlock = false := Bool.eq_false_iff.mpr hcode'
    -- the separator leaves even the table flag alone
    exact .separator inTable hrow hsep
  · obtain rfl : inCodeBlock = false := Bool.eq_false_iff.mpr hcode'
    obtain rfl : inTable = true := htable
    exact .row hrow (Bool.eq_false_iff.mpr hsep)
  · obtain rfl : inCodeBlock = false := Bool.eq_false_iff.mpr hcode'
    obtain rfl : inTable = false := Bool.eq_false_iff.mpr htable
    exact .firstRow hrow (Bool.eq_false_iff.mpr hsep)
  · obtain rfl : inCodeBlock = false := Bool.eq_false_iff.mpr hcode'
    obtain rfl : inTable = true := htable'
    -- the first line that is no row closes the table
    exact .plainAfter (Bool.eq_false_iff.mpr hfence) (Bool.eq_false_iff.mpr hrow)
  · obtain rfl : inCodeBlock = false := Bool.eq_false_iff.mpr hcode'
    obtain rfl : inTable = false := Bool.eq_false_iff.mpr htable'
    exact .plain (Bool.eq_false_iff.mpr hfence) (Bool.eq_false_iff.mpr hrow)

/-- An induction over the lines, with what each of them can do. -/
theorem Mode.line_induction {P : Mode → List (List Char) → Prop}
    (nil : ∀ m, P m [])
    (cons : ∀ m m' line w ls, m.next line = m' → Step line m m' w →
      m.page (line :: ls) = w ++ m'.page ls → P m' ls → P m (line :: ls))
    (m : Mode) (ls : List (List Char)) : P m ls := by
  induction ls generalizing m with
  | nil => exact nil m
  | cons line ls ih =>
    exact cons m (m.next line) line (m.emit line) ls rfl (m.step line) (m.page_cons line ls)
      (ih (m.next line))

/-! ## The renderer spells them -/

theorem spell_newline : spell newline = "\n".toList := by decide

/-- A cell of the source's format string is an element around its escaped text. -/
theorem renderCell_eq_spell {n : Name} {tag : String} (h : n.letters = tag.toList)
    (cell : List Char) : renderCell tag cell = spell (element n (word cell)) := by
  rw [renderCell, spell_element, escapeHtml_eq_spell]
  simp [Tag.literal, Tag.label, h]

/-- So a row is the spelling of its word, with the tags of the header row or of any other. -/
theorem spell_rowWord (n : Name) (tag : String) (h : n.letters = tag.toList)
    (line : List Char) :
    spell (rowWord n line) =
      "<tr>".toList ++ (cellsOf line).flatMap (renderCell tag) ++ "</tr>\n".toList := by
  have hcells : spell ((cellsOf line).flatMap fun c => element n (word c)) =
      (cellsOf line).flatMap (renderCell tag) := by
    rw [spell, List.flatMap_assoc]
    exact List.flatMap_congr fun c _ => (renderCell_eq_spell h c).symm
  rw [rowWord, spell_append, spell_element, hcells, List.append_assoc, spell_newline]
  rfl

/-- A line of the page that is one element. -/
theorem spell_line (n : Name) (opening closing : String)
    (hop : (Tag.op n).literal = opening.toList)
    (hcl : (Tag.cl n).literal ++ "\n".toList = closing.toList) (w : List Sym) :
    spell (element n w ++ newline) = opening.toList ++ spell w ++ closing.toList := by
  rw [spell_append, spell_element, spell_newline, List.append_assoc, hop, hcl]

/-- The rest of a line that starts with an ASCII text. -/
theorem sliceFrom_of_startsWith {p : String} {line : List Char} {n : Nat}
    (h : startsWith p line) (hsize : size Char.utf8Size p.toList = n) (hlen : p.toList.length = n) :
    sliceFrom line n = .ok (line.drop n) := by
  obtain ⟨rest, rfl⟩ := List.isPrefixOf_iff_prefix.mp h
  subst hsize
  rw [sliceFrom, sliceFrom?_size _ Char.utf8Size_pos, ← hlen, List.drop_left]
  rfl

/-- Outside code blocks and tables a line is written as its word is spelled; the slices behind a
    marker start where the marker ends, so none of them panics. -/
theorem renderPlainLine_eq_spell (r : Renderer) (line : List Char) :
    renderPlainLine r line = .ok (r.push (spell (plainWord line))) := by
  rw [renderPlainLine, plainWord]
  split_ifs with h1 h2 h3 hrule hitem hblank
  · -- the markers of headings are ASCII, so the slice is behind them
    rw [sliceFrom_of_startsWith h1 (by decide) (by decide),
      spell_line h1Name "<h1>" "</h1>\n" rfl rfl, ← escapeHtml_eq_spell]
    rfl
  · rw [sliceFrom_of_startsWith h2 (by decide) (by decide),
      spell_line h2Name "<h2>" "</h2>\n" rfl rfl, ← escapeHtml_eq_spell]
    rfl
  · rw [sliceFrom_of_startsWith h3 (by decide) (by decide),
      spell_line h3Name "<h3>" "</h3>\n" rfl rfl, ← escapeHtml_eq_spell]
    rfl
  · -- the rule
    rfl
  · -- the two markers of an item have the same size
    have hslice : sliceFrom line 2 = .ok (line.drop 2) := by
      rcases (Bool.or_eq_true _ _).mp hitem with hdash | hstar
      · exact sliceFrom_of_startsWith hdash (by decide) (by decide)
      · exact sliceFrom_of_startsWith hstar (by decide) (by decide)
    rw [hslice, spell_line liName "<li>" "</li>\n" rfl rfl]
    simp only [bind, Except.bind, processInline_eq_spell]
    rfl
  · -- the blank line
    rfl
  · -- the paragraph
    rw [processInline_eq_spell, spell_line pName "<p>" "</p>\n" rfl rfl]
    rfl

/-- A table row too; the first one opens the table. -/
theorem renderTableLine_eq_spell (r : Renderer) {line : List Char}
    (hsep : isSeparatorLine line = false) :
    renderTableLine r line =
      { r with
        html := r.html ++
          spell (if r.inTable then rowWord tdName line else openTable ++ rowWord thName line)
        inTable := true } := by
  have htd := spell_rowWord tdName "td" rfl line
  have hth := spell_rowWord thName "th" rfl line
  have hopen : spell openTable = "<table>\n".toList := by decide
  rw [renderTableLine, hsep]
  cases htable : r.inTable
  · simp [hth, hopen, Renderer.push]
  · simp [htd, Renderer.push, htable]

/-- **One round of the loop**: the page grows by the spelling of what the line adds, and the flags
    are those of the next mode. -/
theorem renderLine_eq_spell (r : Renderer) (line : List Char) :
    renderLine r line = .ok
      { html := r.html ++ spell (r.mode.emit line)
        inCodeBlock := (r.mode.next line).inCodeBlock
        inTable := (r.mode.next line).inTable } := by
  rw [renderLine, Mode.emit, Mode.next, Renderer.mode]
  split_ifs with hfence hcode hcode' hrow hsep htable htable'
  · -- the end of a code block
    have hspell : spell (.tag (.cl codeName) :: .tag (.cl preName) :: newline) =
        "</code></pre>\n".toList := by decide
    rw [hspell, hcode]
    rfl
  · -- its beginning
    have hspell : spell [.tag (.op preName), .tag (.op codeName)] = "<pre><code>".toList := by
      decide
    rw [hspell, Bool.eq_false_iff.mpr hcode]
    rfl
  · -- a line of code
    rw [spell_append, ← escapeHtml_eq_spell, spell_newline]
    rfl
  · -- the separator adds nothing
    rw [renderTableLine, if_pos hsep, spell_nil, List.append_nil]
  · -- a row, and the first row
    rw [renderTableLine_eq_spell r (Bool.eq_false_iff.mpr hsep), if_pos htable]
  · rw [renderTableLine_eq_spell r (Bool.eq_false_iff.mpr hsep), if_neg htable]
  · -- the line after a table
    have hspell : spell closeTable = "</table>\n".toList := by decide
    rw [renderPlainLine_eq_spell, spell_append, hspell, ← List.append_assoc]
    rfl
  · rw [renderPlainLine_eq_spell, ← Bool.eq_false_iff.mpr htable']
    rfl

/-- The loop over the lines, from any state of its variables. -/
theorem foldlM_renderLine_eq_spell (ls : List (List Char)) (r : Renderer) :
    ls.foldlM renderLine r = .ok
      { html := r.html ++ spell (r.mode.emitAll ls)
        inCodeBlock := (r.mode.after ls).inCodeBlock
        inTable := (r.mode.after ls).inTable } := by
  induction ls generalizing r with
  | nil =>
    rw [Mode.emitAll, spell_nil, List.append_nil]
    rfl
  | cons line ls ih =>
    rw [List.foldlM_cons, renderLine_eq_spell]
    refine (ih _).trans ?_
    rw [Mode.emitAll, spell_append, ← List.append_assoc]
    rfl

/-- The loop from the start, with the head of the page written. -/
theorem renderLines_eq_spell (ls : List (List Char)) :
    renderLines ls = .ok
      { html := htmlHead ++ spell (Mode.start.emitAll ls)
        inCodeBlock := (Mode.start.after ls).inCodeBlock
        inTable := (Mode.start.after ls).inTable } := by
  rw [renderLines, foldlM_renderLine_eq_spell]
  simp only [Renderer.mode, Mode.start]

/-- The renderer never panics, and the page is the spelling of what the lines add to it. -/
theorem renderMarkdown_eq_spell (md : List Char) :
    renderMarkdown md = .ok (htmlHead ++ spell (Mode.start.page (lines md)) ++ htmlTail) := by
  have hclose : spell closeTable = "</table>\n".toList := by decide
  rw [renderMarkdown, renderLines_eq_spell, Mode.page, Mode.epilogue]
  -- the table flag decides what follows the last line
  cases htable : (Mode.start.after (lines md)).inTable
  · simp [bind, Except.bind, pure, Except.pure, Renderer.push]
  · simp [bind, Except.bind, pure, Except.pure, Renderer.push, hclose]

/-! ## No text becomes markup -/

/-- The tags the renderer writes. -/
def tagLiterals : List (List Char) :=
  ["<table>", "</table>", "<tr>", "</tr>", "<th>", "</th>", "<td>", "</td>", "<pre>", "</pre>",
    "<code>", "</code>", "<strong>", "</strong>", "<h1>", "</h1>", "<h2>", "</h2>", "<h3>",
    "</h3>", "<li>", "</li>", "<p>", "</p>", "<hr>", "<br>"].map String.toList

/-- The tags of a row with cells of the given name. -/
def rowTags (n : Name) : List Tag := [.op trName, .cl trName, .op n, .cl n]

/-- The tags of a line that is no table's. -/
def plainTags : List Tag :=
  inlineTags ++ [.op h1Name, .cl h1Name, .op h2Name, .cl h2Name, .op h3Name, .cl h3Name,
    .op liName, .cl liName, .op pName, .cl pName, .op hrName, .op brName]

def pageTags : List Tag :=
  plainTags ++ rowTags thName ++ rowTags tdName ++
    [.op tableName, .cl tableName, .op preName, .cl preName]

theorem tagsIn_rowWord (n : Name) (line : List Char) : TagsIn (rowTags n) (rowWord n line) := by
  have hcells : TagsIn (rowTags n) ((cellsOf line).flatMap fun c => element n (word c)) := by
    intro t ht
    obtain ⟨c, -, hc⟩ := List.mem_flatMap.mp ht
    exact (tagsIn_word _ c).element (by simp [rowTags]) (by simp [rowTags]) t hc
  exact (hcells.element (by simp [rowTags]) (by simp [rowTags])).append (tagsIn_word _ _)

/-- The tags of a line outside code blocks and tables. -/
theorem tagsIn_plainWord (line : List Char) : TagsIn plainTags (plainWord line) := by
  have hheading : ∀ n ∈ [h1Name, h2Name, h3Name], .op n ∈ plainTags ∧ .cl n ∈ plainTags := by
    decide
  have hblock : ∀ n ∈ [liName, pName], .op n ∈ plainTags ∧ .cl n ∈ plainTags := by decide
  have hvoid : ∀ n ∈ [hrName, brName], .op n ∈ plainTags := by decide
  rcases plainWord_cases line with ⟨n, hn, s, h⟩ | ⟨n, hn, s, h⟩ | ⟨n, hn, h⟩
  · -- a heading around escaped text
    rw [h]
    exact ((tagsIn_word _ _).element (hheading n hn).1 (hheading n hn).2).append (tagsIn_word _ _)
  · -- a block around formatted text brings that text's tags too
    have hinline : TagsIn plainTags (inlineWord s) :=
      (tagsIn_inlineWord s).mono fun t ht => List.mem_append_left _ ht
    rw [h]
    exact (hinline.element (hblock n hn).1 (hblock n hn).2).append (tagsIn_word _ _)
  · rw [h]
    exact TagsIn.tag (hvoid n hn) (tagsIn_word _ _)

theorem tagsIn_openTable : TagsIn pageTags openTable := TagsIn.tag (by decide) (tagsIn_word _ _)

theorem tagsIn_closeTable : TagsIn pageTags closeTable := TagsIn.tag (by decide) (tagsIn_word _ _)

/-- No line brings other tags than these, step for step. -/
theorem Step.tagsIn {line : List Char} {m m' : Mode} {w : List Sym} (h : Step line m m' w) :
    TagsIn pageTags w := by
  have hplain : TagsIn pageTags (plainWord line) := (tagsIn_plainWord line).mono (by decide)
  have hheader : TagsIn pageTags (rowWord thName line) := (tagsIn_rowWord _ line).mono (by decide)
  have hrow : TagsIn pageTags (rowWord tdName line) := (tagsIn_rowWord _ line).mono (by decide)
  cases h with
  | openFence => exact TagsIn.tag (by decide) (TagsIn.tag (by decide) (tagsIn_word _ []))
  | closeFence => exact TagsIn.tag (by decide) (TagsIn.tag (by decide) (tagsIn_word _ _))
  | code => exact (tagsIn_word _ _).append (tagsIn_word _ _)
  | separator => exact tagsIn_word _ []
  | firstRow => exact tagsIn_openTable.append hheader
  | row => exact hrow
  | plain => exact hplain
  | plainAfter => exact tagsIn_closeTable.append hplain

/-- So the whole page has no others, whatever mode it starts in. -/
theorem Mode.tagsIn_page (m : Mode) (ls : List (List Char)) : TagsIn pageTags (m.page ls) := by
  induction m, ls using Mode.line_induction with
  | nil m =>
    rw [page, epilogue]
    split_ifs
    · exact tagsIn_closeTable
    · exact tagsIn_word _ []
  | cons m m' line w ls _ hstep hpage ih =>
    rw [hpage]
    exact hstep.tagsIn.append ih

/-- The body of the page is made of the renderer's own tags and of text in which every special
    character is escaped. -/
theorem renderMarkdown_clean (md : List Char) :
    ∃ body, renderMarkdown md = .ok (htmlHead ++ body ++ htmlTail) ∧ Clean tagLiterals body :=
  ⟨_, renderMarkdown_eq_spell md, clean_spell (Mode.tagsIn_page _ _) (by decide)⟩

/-! ## What stays open -/

/-- The labels of the elements that are no block of the page. -/
def inlineLabels : List (List Char) :=
  ["code", "/code", "strong", "/strong", "hr", "br"].map String.toList

/-- The labels of the blocks: the `code` right after a `pre` and the `/code` right before a
    `/pre` are the block's.  `prev` is the label before. -/
def blockLabels (prev : List Char) : List (List Char) → List (List Char)
  | [] => []
  | t :: ts =>
    if t ∉ inlineLabels ∨ (t = "code".toList ∧ prev = "pre".toList) ∨
        (t = "/code".toList ∧ ts.head? = some "/pre".toList) then
      t :: blockLabels t ts
    else blockLabels t ts

/-- What is open between two lines. -/
def Mode.stack (m : Mode) : List (List Char) :=
  (if m.inCodeBlock then [codeName.letters, preName.letters] else []) ++
    if m.inTable then [tableName.letters] else []

/-- The blocks of a word lead from one stack of open blocks to another, whatever comes before and
    after it. -/
def Settles (w : List Sym) (stack stack' : List (List Char)) : Prop :=
  ∀ prev rest, ∃ prev', nestAll stack (blockLabels prev (labels w ++ rest)) =
    nestAll stack' (blockLabels prev' rest)

/-- Two words one after the other: the blocks that the first has left open are those the second
    starts with. -/
theorem Settles.append {w v : List Sym} {s₁ s₂ s₃ : List (List Char)} (hw : Settles w s₁ s₂)
    (hv : Settles v s₂ s₃) : Settles (w ++ v) s₁ s₃ := by
  intro prev rest
  obtain ⟨prev', h⟩ := hw prev (labels v ++ rest)
  obtain ⟨prev'', h'⟩ := hv prev' rest
  exact ⟨prev'', by rw [labels_append, List.append_assoc, h, h']⟩

/-- What has no tags changes nothing. -/
theorem settles_of_labels_eq_nil {w : List Sym} (h : labels w = []) (stack : List (List Char)) :
    Settles w stack stack :=
  fun prev _ => ⟨prev, by rw [h, List.nil_append]⟩

/-- A text neither opens nor closes a block, however it looks. -/
theorem settles_word (s : List Char) (stack : List (List Char)) :
    Settles (word s) stack stack :=
  settles_of_labels_eq_nil (labels_word s) stack

/-- The opening tag of a block. -/
theorem settles_op {n : Name} (hn : (Tag.op n).label ∉ inlineLabels)
    (stack : List (List Char)) : Settles [.tag (.op n)] stack (n.letters :: stack) := by
  intro prev rest
  refine ⟨(Tag.op n).label, ?_⟩
  rw [labels_tag, List.cons_append, blockLabels, if_pos (.inl hn), nestAll_op]
  rfl

/-- The closing tag of the block that was opened last. -/
theorem settles_cl {n : Name} (hn : (Tag.cl n).label ∉ inlineLabels)
    (stack : List (List Char)) : Settles [.tag (.cl n)] (n.letters :: stack) stack := by
  intro prev rest
  refine ⟨(Tag.cl n).label, ?_⟩
  rw [labels_tag, List.cons_append, blockLabels, if_pos (.inl hn), nestAll_cl]
  rfl

/-- A block around a word that leaves the blocks as they are. -/
theorem settles_element {n : Name} {w : List Sym} {stack : List (List Char)}
    (hop : (Tag.op n).label ∉ inlineLabels) (hcl : (Tag.cl n).label ∉ inlineLabels)
    (hw : Settles w (n.letters :: stack) (n.letters :: stack)) :
    Settles (element n w) stack stack :=
  (settles_op hop stack).append (hw.append (settles_cl hcl stack))

/-- A row of cells, one after the other. -/
theorem settles_flatMap {α : Type} {f : α → List Sym} {stack : List (List Char)}
    (h : ∀ a, Settles (f a) stack stack) (l : List α) :
    Settles (l.flatMap f) stack stack := by
  induction l with
  | nil => exact settles_word [] stack
  | cons a l ih => exact (h a).append ih

/-- Labels of inline elements before that of a block. -/
theorem blockLabels_inline {l : List (List Char)} {t prev : List Char}
    (hl : ∀ x ∈ l, x ∈ inlineLabels) (ht : t ∉ inlineLabels) (hpre : t ≠ "/pre".toList)
    (hprev : prev ≠ "pre".toList) (rest : List (List Char)) :
    blockLabels prev (l ++ t :: rest) = t :: blockLabels t rest := by
  induction l generalizing prev with
  | nil => rw [List.nil_append, blockLabels, if_pos (.inl ht)]
  | cons x l ih =>
    have hx : x ∈ inlineLabels := hl x List.mem_cons_self
    -- an inline label is no `pre`, so the `code` after it is inline too
    have hne : x ≠ "pre".toList := by
      rintro rfl
      exact absurd hx (by decide)
    have hnext : (l ++ t :: rest).head? ≠ some "/pre".toList := by
      cases l with
      | nil => simpa using hpre
      | cons y l =>
        have hy : y ∈ inlineLabels := hl y (List.mem_cons_of_mem x List.mem_cons_self)
        rw [List.cons_append, List.head?_cons]
        intro h
        rw [Option.some.inj h] at hy
        exact absurd hy (by decide)
    rw [List.cons_append, blockLabels, if_neg (by tauto)]
    exact ih (fun y hy => hl y (List.mem_cons_of_mem x hy)) hne

/-- A block of formatted text. -/
theorem settles_inline {n : Name} (hop : (Tag.op n).label ∉ inlineLabels)
    (hcl : (Tag.cl n).label ∉ inlineLabels) (hn : n ≠ preName) (s : List Char)
    (stack : List (List Char)) : Settles (element n (inlineWord s)) stack stack := by
  intro prev rest
  refine ⟨(Tag.cl n).label, ?_⟩
  -- the block is no code block, so no `code` in it counts
  have hprev : (Tag.op n).label ≠ "pre".toList :=
    fun h => hn (Tag.op.inj (Tag.label_injective (u := .op preName) h))
  have hend : (Tag.cl n).label ≠ "/pre".toList :=
    fun h => hn (Tag.cl.inj (Tag.label_injective (u := .cl preName) h))
  -- formatted text has inline tags only
  have hinline : ∀ l ∈ labels (inlineWord s), l ∈ inlineLabels := by
    have hsub : ∀ l ∈ inlineTags.map Tag.label, l ∈ inlineLabels := by decide
    exact fun l hl => hsub l ((tagsIn_inlineWord s).label_mem l hl)
  rw [element, labels_tag, labels_append, labels_tag, List.cons_append, blockLabels,
    if_pos (.inl hop), nestAll_op, List.append_assoc, List.cons_append,
    blockLabels_inline hinline hcl hend hprev, nestAll_cl]
  rfl

/-- A row opens and closes its cells and itself. -/
theorem settles_rowWord {n : Name} (hop : (Tag.op n).label ∉ inlineLabels)
    (hcl : (Tag.cl n).label ∉ inlineLabels) (line : List Char) (stack : List (List Char)) :
    Settles (rowWord n line) stack stack := by
  have hcells : Settles ((cellsOf line).flatMap fun c => element n (word c))
      (trName.letters :: stack) (trName.letters :: stack) :=
    settles_flatMap (fun c => settles_element hop hcl (settles_word c _)) _
  exact (settles_element (by decide) (by decide) hcells).append (settles_word _ _)

/-- A tag of no block. -/
theorem settles_void {n : Name} (hn : (Tag.op n).label ∈ inlineLabels) (hcode : n ≠ codeName)
    (stack : List (List Char)) : Settles (.tag (.op n) :: newline) stack stack := by
  intro prev rest
  refine ⟨(Tag.op n).label, ?_⟩
  have hnot : ¬ ((Tag.op n).label ∉ inlineLabels ∨
      ((Tag.op n).label = "code".toList ∧ prev = "pre".toList) ∨
      ((Tag.op n).label = "/code".toList ∧ rest.head? = some "/pre".toList)) := by
    rintro (h | ⟨h, -⟩ | ⟨h, -⟩)
    · exact h hn
    · exact hcode (Tag.op.inj (Tag.label_injective (u := .op codeName) h))
    · exact absurd (Tag.label_injective (u := .cl codeName) h) (by simp)
  rw [labels_tag, newline, labels_word, List.cons_append, blockLabels]
  exact congrArg _ (if_neg hnot)

/-- A line outside code blocks and tables leaves the blocks as they are: headings and paragraphs
    close what they open, and the void tags open no block. -/
theorem settles_plainWord (line : List Char) (stack : List (List Char)) :
    Settles (plainWord line) stack stack := by
  have hheading : ∀ n ∈ [h1Name, h2Name, h3Name],
      (Tag.op n).label ∉ inlineLabels ∧ (Tag.cl n).label ∉ inlineLabels := by decide
  have hblock : ∀ n ∈ [liName, pName], (Tag.op n).label ∉ inlineLabels ∧
      (Tag.cl n).label ∉ inlineLabels ∧ n ≠ preName := by decide
  have hvoid : ∀ n ∈ [hrName, brName], (Tag.op n).label ∈ inlineLabels ∧ n ≠ codeName := by
    decide
  rcases plainWord_cases line with ⟨n, hn, s, h⟩ | ⟨n, hn, s, h⟩ | ⟨n, hn, h⟩
  · -- a heading
    obtain ⟨hop, hcl⟩ := hheading n hn
    rw [h]
    exact (settles_element hop hcl (settles_word s _)).append (settles_word _ _)
  · -- an item or a paragraph
    obtain ⟨hop, hcl, hpre⟩ := hblock n hn
    rw [h]
    exact (settles_inline hop hcl hpre s stack).append (settles_word _ _)
  · -- a rule or a line break
    obtain ⟨hop, hcode⟩ := hvoid n hn
    rw [h]
    exact settles_void hop hcode stack

/-- A fence opens two elements, of which the `code` counts as it follows its `pre`. -/
theorem settles_openFence (stack : List (List Char)) :
    Settles [.tag (.op preName), .tag (.op codeName)] stack
      (codeName.letters :: preName.letters :: stack) := by
  intro prev rest
  refine ⟨(Tag.op codeName).label, ?_⟩
  rw [labels_tag, List.cons_append, blockLabels, if_pos (.inl (by decide)), nestAll_op,
    labels_tag, List.cons_append, blockLabels, if_pos (.inr (.inl ⟨rfl, rfl⟩)), nestAll_op]
  rfl

/-- And closes them: the `/code` counts as its `/pre` follows. -/
theorem settles_closeFence (stack : List (List Char)) :
    Settles (.tag (.cl codeName) :: .tag (.cl preName) :: newline)
      (codeName.letters :: preName.letters :: stack) stack := by
  intro prev rest
  refine ⟨(Tag.cl preName).label, ?_⟩
  rw [labels_tag, labels_tag, List.cons_append, blockLabels, if_pos (.inr (.inr ⟨rfl, rfl⟩)),
    nestAll_cl, List.cons_append, blockLabels, if_pos (.inl (by decide)), nestAll_cl]
  rfl

/-- Line by line. -/
theorem Step.settles {line : List Char} {m m' : Mode} {w : List Sym} (h : Step line m m' w) :
    Settles w m.stack m'.stack := by
  cases h with
  | openFence => exact settles_openFence _
  | closeFence => exact settles_closeFence _
  | code => exact (settles_word _ _).append (settles_word _ _)
  | separator => exact settles_word [] _
  | firstRow =>
    exact ((settles_op (by decide) []).append (settles_word _ _)).append
      (settles_rowWord (by decide) (by decide) line _)
  | row => exact settles_rowWord (by decide) (by decide) line _
  | plain => exact settles_plainWord line _
  | plainAfter =>
    exact ((settles_cl (by decide) []).append (settles_word _ _)).append (settles_plainWord line _)

/-- From line to line the open blocks are those of the mode. -/
theorem Mode.settles_emitAll (m : Mode) (ls : List (List Char)) :
    Settles (m.emitAll ls) m.stack (m.after ls).stack := by
  induction ls generalizing m with
  | nil => exact settles_word [] _
  | cons line ls ih => exact (m.step line).settles.append (ih _)

/-- A line turns the code flag around if and only if it is a fence. -/
theorem Mode.inCodeBlock_next (m : Mode) (line : List Char) :
    (m.next line).inCodeBlock = (m.inCodeBlock != isFence line) := by
  rw [next]
  split_ifs with hfence
  all_goals simp [hfence]

/-- Every fence line turns the flag around. -/
theorem Mode.inCodeBlock_after (m : Mode) (ls : List (List Char)) :
    (m.after ls).inCodeBlock = (m.inCodeBlock != decide (ls.countP isFence % 2 = 1)) := by
  induction ls generalizing m with
  | nil => simp [after]
  | cons line ls ih =>
    have hafter : m.after (line :: ls) = (m.next line).after ls := rfl
    rw [hafter, ih, inCodeBlock_next, List.countP_cons]
    cases isFence line
    · simp
    · -- a fence turns both the flag and the parity around
      rcases Nat.mod_two_eq_zero_or_one (ls.countP isFence) with h | h
      · have h' : (ls.countP isFence + 1) % 2 = 1 := by omega
        simp [h, h']
      · have h' : (ls.countP isFence + 1) % 2 = 0 := by omega
        simp [h, h']

/-- The epilogue closes a table, and no code block. -/
theorem Mode.nestAll_epilogue (m : Mode) (prev : List Char) :
    nestAll m.stack (blockLabels prev (labels m.epilogue)) = some [] ↔
      m.inCodeBlock = false := by
  have hclose : blockLabels prev (labels closeTable) = [(Tag.cl tableName).label] :=
    if_pos (.inl (by decide))
  obtain ⟨inCodeBlock, inTable⟩ := m
  cases inTable
  · rw [epilogue, if_neg (by simp)]
    cases inCodeBlock
    · simp [blockLabels, labels, stack]
    · simp [blockLabels, labels, stack]
  · rw [epilogue, if_pos rfl, hclose]
    cases inCodeBlock
    · decide
    · decide

/-- The blocks of the page are well nested and all closed if and only if the number of fence
    lines is even. -/
theorem renderMarkdown_balanced_iff (md : List Char) :
    ∃ body, renderMarkdown md = .ok (htmlHead ++ body ++ htmlTail) ∧
      (WellNested (blockLabels [] (tags body)) ↔
        (lines md).countP (startsWith "\x60\x60\x60") % 2 = 0) := by
  refine ⟨_, renderMarkdown_eq_spell md, ?_⟩
  -- the code flag after the last line is the parity of the fences
  have hflag := Mode.start.inCodeBlock_after (lines md)
  obtain ⟨prev, hsettles⟩ := Mode.start.settles_emitAll (lines md) []
    (labels (Mode.start.after (lines md)).epilogue)
  have hstart : Mode.start.stack = [] := rfl
  rw [hstart] at hsettles
  rw [tags_spell, Mode.page, labels_append, WellNested, hsettles, Mode.nestAll_epilogue, hflag]
  have hcount : (lines md).countP isFence = (lines md).countP (startsWith "\x60\x60\x60") := rfl
  rw [hcount]
  rcases Nat.mod_two_eq_zero_or_one ((lines md).countP (startsWith "\x60\x60\x60")) with h | h
  · simp [h, Mode.start]
  · simp [h, Mode.start]

/-- A fence at the end of the input opens a code block for good. -/
theorem renderMarkdown_openFence :
    ∃ body, renderMarkdown "\x60\x60\x60".toList = .ok (htmlHead ++ body ++ htmlTail) ∧
      ¬ WellNested (blockLabels [] (tags body)) := by
  refine ⟨_, renderMarkdown_eq_spell _, ?_⟩
  decide

end PpService
