/-
  TABLES OF THE PAGE: which lines of the source make which table, and which cells a row has.

  A table stays open until a line that is neither a table's nor a fence: a fence right after a
  row starts a code block inside the table.  Where that never happens, the tables of the page
  are the runs of table lines, separators left out (`renderMarkdown_tables_iff`).  A row has the
  cells between its pipes unless it is taken for a separator or has two pipes at an end
  (`renderMarkdown_cells_iff`).

  The two flags of the renderer are never both up unless a fence comes in a table
  (`neverBoth_iff`); under that invariant a table opens with its first row and closes with the
  line after its last, so the tables can be read off the lines (`tableRuns`).  The cells are read
  off the page between their tags, which no cell's text can imitate (`cellTexts_spell`).
-/
import PpService.MarkdownPage

namespace PpService

open Delim Markup

/-! ## A fence inside a table -/

/-- A row outside code blocks has table lines only behind it. -/
def RowBehind (ls : List (List Char)) : Prop :=
  ∃ before row seps, ls = before ++ row :: seps ∧ before.countP isFence % 2 = 0 ∧
    isTableLine row ∧ isSeparatorLine row = false ∧ ∀ l ∈ seps, isTableLine l

/-- A fence line comes right after a row, or after a row and more table lines: the one way for a
    code block to start inside a table. -/
def FenceInTable (ls : List (List Char)) : Prop :=
  ∃ before fence after, ls = before ++ fence :: after ∧ RowBehind before ∧ isFence fence

/-- The flags are never both up. -/
def NeverBoth (m : Mode) (ls : List (List Char)) : Prop :=
  ∀ before after, ls = before ++ after →
    ¬ ((m.after before).inCodeBlock = true ∧ (m.after before).inTable = true)

theorem NeverBoth.here {m : Mode} {ls : List (List Char)} (h : NeverBoth m ls) :
    ¬ (m.inCodeBlock = true ∧ m.inTable = true) :=
  h [] ls rfl

theorem NeverBoth.tail {m : Mode} {line : List Char} {ls : List (List Char)}
    (h : NeverBoth m (line :: ls)) : NeverBoth (m.next line) ls := by
  rintro before after rfl
  exact h (line :: before) after rfl

/-- Table lines after a row leave the table open. -/
theorem after_tableLines {seps : List (List Char)} (h : ∀ l ∈ seps, isTableLine l) :
    (Mode.mk false true).after seps = ⟨false, true⟩ := by
  induction seps with
  | nil => rfl
  | cons l seps ih =>
    have hl := h l List.mem_cons_self
    have hnext : (Mode.mk false true).next l = ⟨false, true⟩ := by
      rw [Mode.next, if_neg (by simp [isFence_of_isTableLine hl]), if_neg (by simp), if_pos hl]
      split_ifs <;> rfl
    have hcons : (Mode.mk false true).after (l :: seps) =
        ((Mode.mk false true).next l).after seps := rfl
    rw [hcons, hnext, ih fun l' hl' => h l' (List.mem_cons_of_mem l hl')]

/-- Behind a row the mode is that of an open table. -/
theorem after_of_rowBehind {ls : List (List Char)} (h : RowBehind ls) :
    Mode.start.after ls = ⟨false, true⟩ := by
  obtain ⟨before, row, seps, rfl, heven, htable, hsep, hseps⟩ := h
  have hcode : (Mode.start.after before).inCodeBlock = false := by
    simp [Mode.inCodeBlock_after, heven, Mode.start]
  have hrow : (Mode.start.after before).next row = ⟨false, true⟩ := by
    rw [Mode.next, if_neg (by simp [isFence_of_isTableLine htable]), if_neg (by simp [hcode]),
      if_pos htable, if_neg (by simp [hsep]), hcode]
  have hcons : (Mode.start.after before).after (row :: seps) =
      ((Mode.start.after before).next row).after seps := rfl
  rw [Mode.after_append, hcons, hrow, after_tableLines hseps]

/-- What a line keeps true: the flags are not both up, and an open table has a row behind.  The one
    line that could put the second flag up beside the first is a fence after a row. -/
theorem flags_step {before : List (List Char)} {l : List Char} {m m' : Mode} {w : List Sym}
    (hstep : Step l m m' w) (heven : m.inCodeBlock = false → before.countP isFence % 2 = 0)
    (hfree : ¬ (RowBehind before ∧ isFence l))
    (hboth : ¬ (m.inCodeBlock = true ∧ m.inTable = true))
    (hrow : m.inTable = true → RowBehind before) :
    ¬ (m'.inCodeBlock = true ∧ m'.inTable = true) ∧
      (m'.inTable = true → RowBehind (before ++ [l])) := by
  cases hstep with
  | openFence t hfence =>
    cases t with
    | false => exact ⟨by simp, by simp⟩
    -- a fence behind a row: ruled out
    | true => exact absurd ⟨hrow rfl, hfence⟩ hfree
  | closeFence t hfence =>
    cases t with
    | false => exact ⟨by simp, by simp⟩
    -- both flags up: not before the line
    | true => exact absurd ⟨rfl, rfl⟩ hboth
  | code t hfence =>
    cases t with
    | false => exact ⟨by simp, by simp⟩
    | true => exact absurd ⟨rfl, rfl⟩ hboth
  | separator t htable hsep =>
    -- the separator is one more table line behind the row
    refine ⟨by simp, fun ht => ?_⟩
    obtain ⟨x, row, seps, rfl, hx, hrowTable, hrowSep, hseps⟩ := hrow ht
    refine ⟨x, row, seps ++ [l], by simp, hx, hrowTable, hrowSep, fun l' hl' => ?_⟩
    rcases List.mem_append.mp hl' with h | h
    · exact hseps l' h
    · rwa [List.mem_singleton.mp h]
  | firstRow htable hsep =>
    exact ⟨by simp, fun _ => ⟨before, l, [], rfl, heven rfl, htable, hsep, by simp⟩⟩
  | row htable hsep =>
    exact ⟨by simp, fun _ => ⟨before, l, [], rfl, heven rfl, htable, hsep, by simp⟩⟩
  -- any other line closes the table
  | plain hfence htable => exact ⟨by simp, by simp⟩
  | plainAfter hfence htable => exact ⟨by simp, by simp⟩

/-- The same after every prefix of the lines, if no fence comes in a table. -/
theorem flags_of_not_fenceInTable {ls : List (List Char)} (hls : ¬ FenceInTable ls)
    (before : List (List Char)) (after : List (List Char)) (heq : ls = before ++ after) :
    ¬ ((Mode.start.after before).inCodeBlock = true ∧
        (Mode.start.after before).inTable = true) ∧
      ((Mode.start.after before).inTable = true → RowBehind before) := by
  induction before using List.reverseRecOn generalizing after with
  | nil => exact ⟨by simp [Mode.after, Mode.start], by simp [Mode.after, Mode.start]⟩
  | append_singleton before l ih =>
    have heven : (Mode.start.after before).inCodeBlock = false →
        before.countP isFence % 2 = 0 := by
      rw [Mode.inCodeBlock_after]
      intro h
      have hne : ¬ before.countP isFence % 2 = 1 := by simpa [Mode.start] using h
      omega
    have hsplit : ls = before ++ l :: after := by simpa using heq
    -- a row behind and a fence here would be a fence in a table
    have hfree : ¬ (RowBehind before ∧ isFence l) := by
      intro h
      exact hls ⟨before, l, after, hsplit, h.1, h.2⟩
    obtain ⟨hboth, hrow⟩ := ih (l :: after) hsplit
    have hafter : Mode.start.after (before ++ [l]) = (Mode.start.after before).next l := by
      rw [Mode.after_append]
      rfl
    rw [hafter]
    exact flags_step ((Mode.start.after before).step l) heven hfree hboth hrow

/-- **Both flags are up at some point if and only if a fence comes in a table.**  One way the fence
    after the row puts the code flag up beside the table flag; the other way is the invariant
    above. -/
theorem neverBoth_iff (ls : List (List Char)) : NeverBoth .start ls ↔ ¬ FenceInTable ls := by
  constructor
  · rintro hnever ⟨before, fence, after, rfl, hrow, hfence⟩
    have hlast : (Mode.mk false true).next fence = ⟨true, true⟩ := by
      rw [Mode.next, if_pos hfence]
      rfl
    have hafter : Mode.start.after (before ++ [fence]) = ⟨true, true⟩ := by
      rw [Mode.after_append, after_of_rowBehind hrow]
      exact hlast
    refine hnever (before ++ [fence]) after (by simp) ?_
    rw [hafter]
    exact ⟨rfl, rfl⟩
  · intro hls before after heq
    exact (flags_of_not_fenceInTable hls before after heq).1

/-! ## Runs of table lines -/

/-- The lines that are a table's, outside code blocks; the others are `none`. -/
def tableLines (inCodeBlock : Bool) : List (List Char) → List (Option (List Char))
  | [] => []
  | l :: ls =>
    (if isTableLine l && !inCodeBlock then some l else none) ::
      tableLines (inCodeBlock != isFence l) ls

/-- The rows of a run. -/
def rowsOf (run : List (Option (List Char))) : List (List Char) :=
  (run.filterMap id).filter (!isSeparatorLine ·)

/-- The rows between two lines that are no table's. -/
def tableRows (inCodeBlock : Bool) (ls : List (List Char)) : List (List (List Char)) :=
  ((tableLines inCodeBlock ls).splitOn none).map rowsOf

/-- The rows of the maximal runs of table lines that have one: what one takes for the tables of a
    text when reading its source. -/
def tableRuns (ls : List (List Char)) : List (List (List Char)) :=
  (tableRows false ls).filter (· ≠ [])

/-- A line that is no table's ends the run in front of which it stands. -/
theorem tableRows_of_not_table {inCodeBlock : Bool} {l : List Char}
    (h : (isTableLine l && !inCodeBlock) = false) (ls : List (List Char)) :
    tableRows inCodeBlock (l :: ls) = [] :: tableRows (inCodeBlock != isFence l) ls := by
  rw [tableRows, tableLines, h, List.splitOn_cons_eq_if_modifyHead]
  rfl

/-- A table line joins the run behind it, with a row unless it is a separator. -/
theorem tableRows_of_table {l : List Char} (h : isTableLine l) (ls : List (List Char)) :
    tableRows false (l :: ls) =
      (tableRows false ls).modifyHead fun rows =>
        if isSeparatorLine l then rows else l :: rows := by
  have hfence : (false != isFence l) = false := by rw [isFence_of_isTableLine h]; rfl
  rw [tableRows, tableLines, h, hfence, List.splitOn_cons_eq_if_modifyHead, tableRows]
  cases hsplit : (tableLines false ls).splitOn none with
  | nil => exact absurd hsplit (List.splitOn_ne_nil _ _)
  | cons run runs =>
    cases hsep : isSeparatorLine l
    · simp [rowsOf, hsep]
    · simp [rowsOf, hsep]

/-! ## The tables of the page -/

/-- What stands between the tags of a table: the first row is the header. -/
def tableWord : List (List Char) → List Sym
  | [] => newline
  | row :: rows => newline ++ (rowWord thName row ++ rows.flatMap (rowWord tdName))

/-- The insides of the tables of a word. -/
def tableSpans (w : List Sym) : List (List Sym) :=
  spans [.tag (.op tableName)] [.tag (.cl tableName)] w

/-- What opens no table adds none. -/
theorem tableSpans_append {w : List Sym} {ts : List Tag} (hw : TagsIn ts w)
    (h : Tag.op tableName ∉ ts) (v : List Sym) : tableSpans (w ++ v) = tableSpans v :=
  Inert.spans_append (List.cons_ne_nil _ _) (Inert.of_head fun hmem => h (hw _ hmem)) _ _

/-- The tags of some rows are those of a row. -/
theorem tagsIn_rows (n : Name) (rows : List (List Char)) :
    TagsIn (rowTags n) (rows.flatMap (rowWord n)) := by
  intro t ht
  obtain ⟨row, -, hrow⟩ := List.mem_flatMap.mp ht
  exact tagsIn_rowWord n row t hrow

/-- The tags inside a table: a header row's, and those of the others. -/
theorem tagsIn_tableWord (rows : List (List Char)) :
    TagsIn (rowTags thName ++ rowTags tdName) (tableWord rows) := by
  cases rows with
  | nil => exact tagsIn_word _ _
  | cons row rows =>
    have hheader : TagsIn (rowTags thName ++ rowTags tdName) (rowWord thName row) :=
      (tagsIn_rowWord thName row).mono (by decide)
    have hrows : TagsIn (rowTags thName ++ rowTags tdName) (rows.flatMap (rowWord tdName)) :=
      (tagsIn_rows tdName rows).mono (by decide)
    exact (tagsIn_word _ _).append (hheader.append hrows)

/-- A table and the rest of the page. -/
theorem tableSpans_table (rows : List (List Char)) (rest : List Sym) :
    tableSpans (.tag (.op tableName) :: (tableWord rows ++ .tag (.cl tableName) :: rest)) =
      tableWord rows :: tableSpans rest := by
  have hop : Sym.tag (.op tableName) ∉ tableWord rows :=
    fun h => absurd (tagsIn_tableWord rows _ h) (by decide)
  have hcl : Sym.tag (.cl tableName) ∉ tableWord rows :=
    fun h => absurd (tagsIn_tableWord rows _ h) (by decide)
  exact spans_of_span (List.cons_ne_nil _ _) (List.cons_ne_nil _ _)
    ((Inert.of_head hop).append (Inert.of_head (by decide))) (Inert.of_head hcl) rest

/-- Outside a table, a line that is no table's adds none and ends the run before it. -/
theorem tableSpans_page_cons {m m' : Mode} {line : List Char} {ls : List (List Char)}
    {w : List Sym} {ts : List Tag} (hnext : m.next line = m')
    (hpage : m.page (line :: ls) = w ++ m'.page ls)
    (hline : (isTableLine line && !m.inCodeBlock) = false) (hw : TagsIn ts w)
    (hts : Tag.op tableName ∉ ts)
    (ih : tableSpans (m'.page ls) =
      ((tableRows m'.inCodeBlock ls).filter (· ≠ [])).map tableWord) :
    tableSpans (m.page (line :: ls)) =
      ((tableRows m.inCodeBlock (line :: ls)).filter (· ≠ [])).map tableWord := by
  have hcode : m'.inCodeBlock = (m.inCodeBlock != isFence line) := by
    rw [← hnext, Mode.inCodeBlock_next]
  rw [hpage, tableSpans_append hw hts, ih, tableRows_of_not_table hline, ← hcode,
    List.filter_cons_of_neg (by simp)]

/-- From any mode, the tables of the rest of the page are the runs of the rest of the lines; a
    table that is open takes the rows of the first run. -/
theorem tableSpans_page (m : Mode) (ls : List (List Char)) (hnever : NeverBoth m ls) :
    (m.inTable = false →
      tableSpans (m.page ls) =
        ((tableRows m.inCodeBlock ls).filter (· ≠ [])).map tableWord) ∧
    (m.inTable = true → ∃ rows runs rest, tableRows false ls = rows :: runs ∧
      m.page ls = rows.flatMap (rowWord tdName) ++ .tag (.cl tableName) :: rest ∧
      tableSpans rest = (runs.filter (· ≠ [])).map tableWord) := by
  induction m, ls using Mode.line_induction with
  | nil m =>
    obtain ⟨inCodeBlock, inTable⟩ := m
    constructor
    · -- no lines are left: an open table is closed behind no rows
      rintro rfl
      rfl
    · rintro rfl
      exact ⟨[], [], newline, rfl, rfl, rfl⟩
  | cons m m' line w ls hnext hstep hpage ih =>
    have hnever' : NeverBoth m' ls := hnext ▸ hnever.tail
    obtain ⟨hclosed, hopen⟩ := ih hnever'
    have hnotTable : isFence line → isTableLine line = false := by
      intro hfence
      rw [← Bool.not_eq_true]
      intro htable
      rw [isFence_of_isTableLine htable] at hfence
      cases hfence
    cases hstep with
    | openFence t hfence =>
      cases t with
      -- the table would stay open in the code block
      | true => exact absurd ⟨rfl, rfl⟩ hnever'.here
      | false =>
        have hw : TagsIn [.op preName, .op codeName] [Sym.tag (.op preName), .tag (.op codeName)] :=
          TagsIn.tag (by decide) (TagsIn.tag (by decide) (tagsIn_word _ []))
        refine ⟨fun _ => ?_, nofun⟩
        exact tableSpans_page_cons hnext hpage (by rw [hnotTable hfence]; rfl) hw (by decide)
          (hclosed rfl)
    | closeFence t hfence =>
      cases t with
      | true => exact absurd ⟨rfl, rfl⟩ hnever.here
      | false =>
        have hw : TagsIn [.cl preName, .cl codeName]
            (.tag (.cl codeName) :: .tag (.cl preName) :: newline) :=
          TagsIn.tag (by decide) (TagsIn.tag (by decide) (tagsIn_word _ _))
        refine ⟨fun _ => ?_, nofun⟩
        exact tableSpans_page_cons hnext hpage (by rw [hnotTable hfence]; rfl) hw (by decide)
          (hclosed rfl)
    | code t hfence =>
      cases t with
      | true => exact absurd ⟨rfl, rfl⟩ hnever.here
      | false =>
        refine ⟨fun _ => ?_, nofun⟩
        exact tableSpans_page_cons hnext hpage (by simp)
          ((tagsIn_word [] line).append (tagsIn_word [] _)) (by decide) (hclosed rfl)
    | separator t htable hsep =>
      -- the separator adds nothing to the page and no row to the run
      have hrows : tableRows false (line :: ls) = tableRows false ls := by
        rw [tableRows_of_table htable, hsep]
        cases tableRows false ls <;> rfl
      rw [hpage, List.nil_append, hrows]
      exact ⟨hclosed, hopen⟩
    | firstRow htable hsep =>
      refine ⟨fun _ => ?_, nofun⟩
      obtain ⟨rows, runs, rest, hrows, hrest, hspans⟩ := hopen rfl
      -- the header row and the rows of the run make up the table
      have htext : openTable ++ rowWord thName line ++
          (rows.flatMap (rowWord tdName) ++ .tag (.cl tableName) :: rest) =
            .tag (.op tableName) ::
              (tableWord (line :: rows) ++ .tag (.cl tableName) :: rest) := by
        simp [openTable, tableWord]
      rw [hpage, hrest, htext, tableSpans_table, hspans, tableRows_of_table htable, hsep, hrows]
      rfl
    | row htable hsep =>
      refine ⟨nofun, fun _ => ?_⟩
      obtain ⟨rows, runs, rest, hrows, hrest, hspans⟩ := hopen rfl
      -- one more row in front of those that follow
      refine ⟨line :: rows, runs, rest, ?_, ?_, hspans⟩
      · rw [tableRows_of_table htable, hsep, hrows]
        rfl
      · rw [hpage, hrest, List.flatMap_cons, List.append_assoc]
    | plain hfence htable =>
      refine ⟨fun _ => ?_, nofun⟩
      exact tableSpans_page_cons hnext hpage (by rw [htable]; rfl) (tagsIn_plainWord line)
        (by decide) (hclosed rfl)
    | plainAfter hfence htable =>
      refine ⟨nofun, fun _ => ?_⟩
      -- the run has come to its end, and so has the table
      refine ⟨[], tableRows false ls, newline ++ plainWord line ++ (Mode.mk false false).page ls,
        ?_, ?_, ?_⟩
      · rw [tableRows_of_not_table (by rw [htable]; rfl), hfence]
        rfl
      · rw [hpage, closeTable]
        simp
      · have hw : TagsIn plainTags (newline ++ plainWord line) :=
          (tagsIn_word _ _).append (tagsIn_plainWord line)
        rw [tableSpans_append hw (by decide)]
        exact hclosed rfl

/-! ## Code blocks -/

/-- No `pre` starts where a table is open. -/
def NoPreInTable (isOpen : Bool) : List (List Char) → Prop
  | [] => True
  | t :: ts =>
    (t = "pre".toList → isOpen = false) ∧
      NoPreInTable (if t = "table".toList then true else if t = "/table".toList then false
        else isOpen) ts

/-- Labels that are none of the three do not matter. -/
theorem noPreInTable_append {isOpen : Bool} {l : List (List Char)}
    (h : ∀ t ∈ l, t ∉ ["pre".toList, "table".toList, "/table".toList])
    (rest : List (List Char)) :
    NoPreInTable isOpen (l ++ rest) ↔ NoPreInTable isOpen rest := by
  induction l with
  | nil => rfl
  | cons t l ih =>
    have ht := h t List.mem_cons_self
    simp only [List.mem_cons, List.not_mem_nil, or_false, not_or] at ht
    rw [List.cons_append, NoPreInTable, if_neg ht.2.1, if_neg ht.2.2,
      ih fun u hu => h u (List.mem_cons_of_mem t hu)]
    exact and_iff_right fun hpre => absurd hpre ht.1

/-- Nor do words without these tags. -/
theorem noPreInTable_append_word {isOpen : Bool} {w : List Sym} {ts : List Tag}
    (hw : TagsIn ts w)
    (hts : ∀ l ∈ ts.map Tag.label, l ∉ ["pre".toList, "table".toList, "/table".toList])
    (rest : List (List Char)) :
    NoPreInTable isOpen (labels w ++ rest) ↔ NoPreInTable isOpen rest :=
  noPreInTable_append (fun t ht => hts t (hw.label_mem t ht)) rest

/-- From any mode whose flags are never both up, no code block of the page starts in a table: the
    `pre` of an opening fence comes when the table flag is down. -/
theorem noPreInTable_page (m : Mode) (ls : List (List Char)) (hnever : NeverBoth m ls) :
    NoPreInTable m.inTable (labels (m.page ls)) := by
  induction m, ls using Mode.line_induction with
  | nil m =>
    obtain ⟨inCodeBlock, inTable⟩ := m
    cases inTable
    · exact trivial
    · -- the closing tag of a table at the end
      exact ⟨fun h => absurd h (by decide), trivial⟩
  | cons m m' line w ls hnext hstep hpage ih =>
    have hnever' : NeverBoth m' ls := hnext ▸ hnever.tail
    have hrest := ih hnever'
    have hplain : ∀ isOpen rest, NoPreInTable isOpen (labels (plainWord line) ++ rest) ↔
        NoPreInTable isOpen rest :=
      fun isOpen rest => noPreInTable_append_word (tagsIn_plainWord line) (by decide) rest
    rw [hpage, labels_append]
    cases hstep with
    | openFence t hfence =>
      cases t with
      | true => exact absurd ⟨rfl, rfl⟩ hnever'.here
      | false => exact ⟨fun _ => rfl, fun h => absurd h (by decide), hrest⟩
    | closeFence t hfence =>
      have hw : TagsIn [.cl preName, .cl codeName]
          (.tag (.cl codeName) :: .tag (.cl preName) :: newline) :=
        TagsIn.tag (by decide) (TagsIn.tag (by decide) (tagsIn_word _ _))
      exact (noPreInTable_append_word hw (by decide) _).mpr hrest
    | code t hfence =>
      have hw : TagsIn [] (word line ++ newline) := (tagsIn_word _ _).append (tagsIn_word _ _)
      exact (noPreInTable_append_word hw (by decide) _).mpr hrest
    | separator t htable hsep => exact hrest
    | firstRow htable hsep =>
      rw [labels_append, List.append_assoc]
      refine ⟨fun h => absurd h (by decide), ?_⟩
      exact (noPreInTable_append_word (tagsIn_rowWord thName line) (by decide) _).mpr hrest
    | row htable hsep =>
      exact (noPreInTable_append_word (tagsIn_rowWord tdName line) (by decide) _).mpr hrest
    | plain hfence htable => exact (hplain _ _).mpr hrest
    | plainAfter hfence htable =>
      rw [labels_append, List.append_assoc]
      exact ⟨fun h => absurd h (by decide), (hplain _ _).mpr hrest⟩

/-! ## Tables and code blocks of the page -/

/-- A row as the page has it. -/
def rowHtml (tag : String) (line : List Char) : List Char :=
  "<tr>".toList ++ (cellsOf line).flatMap (renderCell tag) ++ "</tr>\n".toList

/-- What stands between the tags of a table: the first row has `th` cells, the others `td`. -/
def tableHtml : List (List Char) → List Char
  | [] => "\n".toList
  | row :: rows => "\n".toList ++ (rowHtml "th" row ++ rows.flatMap (rowHtml "td"))

/-- The inside of a table is spelled row by row. -/
theorem spell_tableWord (rows : List (List Char)) : spell (tableWord rows) = tableHtml rows := by
  cases rows with
  | nil => exact spell_newline
  | cons row rows =>
    have hrows : spell (rows.flatMap (rowWord tdName)) = rows.flatMap (rowHtml "td") := by
      rw [spell, List.flatMap_assoc]
      exact List.flatMap_congr fun r _ => spell_rowWord tdName "td" rfl r
    have hheader : spell (rowWord thName row) = rowHtml "th" row :=
      spell_rowWord thName "th" rfl row
    rw [tableWord, tableHtml, spell_append, spell_append, spell_newline, hheader, hrows]

/-- Tables and code blocks are apart, and the tables of the page are the runs of table lines
    with a row, if and only if no fence opens a code block right after such a run. -/
theorem renderMarkdown_tables_iff (md : List Char) :
    ∃ body, renderMarkdown md = .ok (htmlHead ++ body ++ htmlTail) ∧
      ((∀ before after r, lines md = before ++ after → renderLines before = .ok r →
          ¬ (r.inCodeBlock = true ∧ r.inTable = true)) ∧
        NoPreInTable false (tags body) ∧
        spans "<table>".toList "</table>".toList body = (tableRuns (lines md)).map tableHtml ↔
          ¬ FenceInTable (lines md)) := by
  refine ⟨_, renderMarkdown_eq_spell md, ?_⟩
  have hflags : (∀ before after r, lines md = before ++ after → renderLines before = .ok r →
      ¬ (r.inCodeBlock = true ∧ r.inTable = true)) ↔ NeverBoth .start (lines md) := by
    constructor
    · intro h before after heq
      exact h before after _ heq (renderLines_eq_spell before)
    · intro h before after r heq hr
      rw [renderLines_eq_spell] at hr
      obtain rfl := Except.ok.inj hr
      exact h before after heq
  rw [hflags, ← neverBoth_iff]
  refine and_iff_left_of_imp fun hnever => ⟨?_, ?_⟩
  · -- the other two parts follow from the first
    rw [tags_spell]
    exact noPreInTable_page .start (lines md) hnever
  · have hspans := (tableSpans_page .start (lines md) hnever).1 rfl
    have hspell : spans "<table>".toList "</table>".toList
        (spell (Mode.start.page (lines md))) =
          (tableSpans (Mode.start.page (lines md))).map spell :=
      spans_spell (.op tableName) (.cl tableName) _
    rw [hspell, hspans, List.map_map]
    exact List.map_congr_left fun rows _ => spell_tableWord rows

/-- A fence right after a row: the code block is in the table. -/
theorem renderMarkdown_fence_in_table :
    (∃ r, renderLines (lines "| a |\n\x60\x60\x60".toList) = .ok r ∧
      r.inCodeBlock = true ∧ r.inTable = true) ∧
    ∃ body, renderMarkdown "| a |\n\x60\x60\x60".toList = .ok (htmlHead ++ body ++ htmlTail) ∧
      ¬ NoPreInTable false (tags body) := by
  refine ⟨⟨_, renderLines_eq_spell _, ?_⟩, _, renderMarkdown_eq_spell _, ?_⟩
  · decide
  · intro h
    -- the labels of the page, where the `pre` comes before the `/table`
    have htags : tags (spell (Mode.start.page (lines "| a |\n\x60\x60\x60".toList))) =
        ["table", "tr", "th", "/th", "/tr", "pre", "code", "/table"].map String.toList := by
      decide
    rw [htags] at h
    exact absurd (h.2.2.2.2.2.1 rfl) (by decide)

/-! ## The cells of a row -/

/-- The texts between a pipe and the next one. -/
def betweenPipes (line : List Char) : List (List Char) := (line.splitOn '|').tail.dropLast

/-- What stands between the pipes at the two ends of a line. -/
def innerText (line : List Char) : List Char := line.tail.dropLast

/-- A row whose cells are dashes, colons and spaces, and not all blank. -/
def IsSeparatorRow (line : List Char) : Prop :=
  (∀ cell ∈ betweenPipes line, cell.all (· ∈ ['-', ':', ' '])) ∧
    ∃ cell ∈ betweenPipes line, trim cell ≠ []

instance (line : List Char) : Decidable (IsSeparatorRow line) :=
  inferInstanceAs (Decidable (_ ∧ _))

/-- The contents of the cells that a part of the page has. -/
def cellTexts (html : List Char) : List (List Char) :=
  spans "<th>".toList "</th>".toList html ++ spans "<td>".toList "</td>".toList html

/-- A text has one piece more than it has separators. -/
theorem length_splitOn (c : Char) (s : List Char) : (s.splitOn c).length = s.count c + 1 := by
  induction s with
  | nil => rfl
  | cons x s ih =>
    rw [List.splitOn_cons_eq_if_modifyHead, List.count_cons]
    -- a separator starts a new piece, any other character is added to one
    split_ifs with hx
    · rw [List.length_cons, ih]
    · rw [List.length_modifyHead, ih, Nat.add_zero]

/-- `trim_matches` strips the character in front. -/
theorem trimMatches_cons (c : Char) (s : List Char) :
    trimMatches c (c :: s) = trimMatches c s := by
  rw [trimMatches, List.dropWhile_cons_of_pos (by simp), trimMatches]

/-- It strips the character at the end. -/
theorem trimMatches_concat (c : Char) (s : List Char) :
    trimMatches c (s ++ [c]) = trimMatches c s :=
  dropWhile_rdropWhile_concat (by simp) s

/-- Where the character is at neither end, `trim_matches` strips nothing. -/
theorem trimMatches_eq_self {c : Char} {s : List Char} (hfirst : s.head? ≠ some c)
    (hlast : s.getLast? ≠ some c) : trimMatches c s = s := by
  refine dropWhile_rdropWhile_eq_self ?_ ?_
  · rintro x hx heq
    exact hfirst (of_decide_eq_true heq ▸ hx)
  · rintro x hx heq
    exact hlast (of_decide_eq_true heq ▸ hx)

/-- Stripping adds none of the character. -/
theorem count_trimMatches_le (c : Char) (s : List Char) :
    (trimMatches c s).count c ≤ s.count c :=
  ((List.rdropWhile_prefix _ _).sublist.trans (List.dropWhile_sublist _)).count_le c

/-- Trimming loses a pipe that is at an end of the text. -/
theorem count_trimMatches_lt {c : Char} {s : List Char}
    (h : ¬ (s.head? ≠ some c ∧ s.getLast? ≠ some c)) :
    (trimMatches c s).count c < s.count c := by
  rw [not_and_or, not_not, not_not] at h
  rcases h with hfirst | hlast
  · -- a pipe in front is lost
    obtain ⟨s, rfl⟩ := List.head?_eq_some_iff.mp hfirst
    have := count_trimMatches_le c s
    rw [trimMatches_cons, List.count_cons_self]
    omega
  · -- or one at the end
    obtain ⟨s, rfl⟩ := List.getLast?_eq_some_iff.mp hlast
    have := count_trimMatches_le c s
    rw [trimMatches_concat, List.count_append, List.count_singleton_self]
    omega

/-- A table line with two pipes has one at either end. -/
theorem eq_innerText {line : List Char} (htable : isTableLine line)
    (hpipes : 2 ≤ line.count '|') : line = '|' :: (innerText line ++ ['|']) := by
  obtain ⟨hpre, hend⟩ := (Bool.and_eq_true _ _).mp htable
  obtain ⟨rest, hrest⟩ := List.isPrefixOf_iff_prefix.mp hpre
  obtain ⟨front, rfl⟩ := List.getLast?_eq_some_iff.mp (of_decide_eq_true hend)
  cases front with
  -- the one pipe in front and the one at the end would be the same
  | nil => exact absurd hpipes (by decide)
  | cons x inner =>
    obtain rfl : '|' = x := (List.cons.inj hrest).1
    simp [innerText]

/-- Between the pipes of a line that has one at either end stand the pieces of its inside. -/
theorem betweenPipes_eq (inner : List Char) :
    betweenPipes ('|' :: (inner ++ ['|'])) = inner.splitOn '|' := by
  have hfront : ('|' :: (inner ++ ['|'])).splitOn '|' = [] :: (inner.splitOn '|' ++ [[]]) := by
    rw [show '|' :: (inner ++ ['|']) = [] ++ '|' :: (inner ++ '|' :: []) from rfl,
      List.splitOn_append_cons_self, List.splitOn_append_cons_self]
    rfl
  rw [betweenPipes, hfront, List.tail_cons, List.dropLast_concat]

/-- The cells of a row are the texts between its pipes, unless one of the pipes that the source
    strips is an inner one: `trim_matches` takes every pipe at an end, not just the outer one. -/
theorem cellsOf_eq_iff {inner : List Char} {α : Type} {f : List Char → α} :
    ((trimMatches '|' ('|' :: (inner ++ ['|']))).splitOn '|').map f =
        (inner.splitOn '|').map f ↔
      inner.head? ≠ some '|' ∧ inner.getLast? ≠ some '|' := by
  rw [trimMatches_cons, trimMatches_concat]
  constructor
  · intro h
    -- a pipe that is lost is a cell that is lost
    by_contra hends
    have hlt := count_trimMatches_lt hends
    have hlen := congrArg List.length h
    rw [List.length_map, List.length_map, length_splitOn, length_splitOn] at hlen
    omega
  · rintro ⟨hfirst, hlast⟩
    rw [trimMatches_eq_self hfirst hlast]

/-! ## The cells on the page -/

/-- The cells of one kind that a word has. -/
def cellSpans (n : Name) (w : List Sym) : List (List Sym) :=
  spans [.tag (.op n)] [.tag (.cl n)] w

/-- The cells of a part of the page are those of its word, spelled.  A cell's text is escaped, so it
    cannot hold a tag that would end it. -/
theorem cellTexts_spell (w : List Sym) :
    cellTexts (spell w) = (cellSpans thName w ++ cellSpans tdName w).map spell := by
  have hth : spans "<th>".toList "</th>".toList (spell w) = (cellSpans thName w).map spell :=
    spans_spell (.op thName) (.cl thName) w
  have htd : spans "<td>".toList "</td>".toList (spell w) = (cellSpans tdName w).map spell :=
    spans_spell (.op tdName) (.cl tdName) w
  rw [cellTexts, hth, htd, List.map_append]

theorem cellSpans_eq_nil {n : Name} {w : List Sym} {ts : List Tag} (hw : TagsIn ts w)
    (h : Tag.op n ∉ ts) : cellSpans n w = [] :=
  spans_of_none (cut?_singleton_eq_none.mpr fun hmem => h (hw _ hmem))

/-- Cell after cell. -/
theorem cellSpans_cells (n : Name) (cells : List (List Char)) (rest : List Sym) :
    cellSpans n ((cells.flatMap fun c => element n (word c)) ++ rest) =
      cells.map word ++ cellSpans n rest := by
  induction cells with
  | nil => rfl
  | cons c cells ih =>
    -- inside a cell there is text only, so it ends at its own tag
    have hop : Inert [Sym.tag (.op n)] (word c ++ [.tag (.cl n)]) :=
      (Inert.of_head (tag_not_mem_word _ c)).append (Inert.of_head (by simp))
    have hcell := spans_of_span (List.cons_ne_nil _ _) (List.cons_ne_nil _ _) hop
      (Inert.of_head (tag_not_mem_word (.cl n) c))
      ((cells.flatMap fun c => element n (word c)) ++ rest)
    rw [List.flatMap_cons, List.map_cons, List.cons_append, ← ih, cellSpans, cellSpans, ← hcell]
    simp [element]

/-- A row has its own kind of cells. -/
theorem cellSpans_rowWord {n : Name} (hn : n ≠ trName) (line : List Char) :
    cellSpans n (rowWord n line) = (cellsOf line).map word := by
  have hop : Inert [Sym.tag (.op n)] [.tag (.op trName)] := Inert.of_head (by simpa using hn)
  have hrest : TagsIn [.cl trName] (.tag (.cl trName) :: newline) :=
    TagsIn.tag (by decide) (tagsIn_word _ _)
  have hsplit : rowWord n line = [.tag (.op trName)] ++
      (((cellsOf line).flatMap fun c => element n (word c)) ++
        .tag (.cl trName) :: newline) := by
    simp [rowWord, element]
  rw [hsplit, cellSpans, hop.spans_append (List.cons_ne_nil _ _), ← cellSpans, cellSpans_cells,
    cellSpans_eq_nil hrest (by simp), List.append_nil]

/-- What a table line adds to the page, cell by cell. -/
theorem Step.cellTexts {line : List Char} {m m' : Mode} {w : List Sym} (h : Step line m m' w)
    (hcode : m.inCodeBlock = false) (htable : isTableLine line) :
    cellTexts (spell w) =
      if isSeparatorLine line then [] else (cellsOf line).map escapeHtml := by
  have hspell : ∀ cells : List (List Char), (cells.map word).map spell = cells.map escapeHtml := by
    intro cells
    rw [List.map_map]
    exact List.map_congr_left fun c _ => (escapeHtml_eq_spell c).symm
  rw [cellTexts_spell]
  cases h with
  | openFence t hfence =>
    rw [isFence_of_isTableLine htable] at hfence
    cases hfence
  | closeFence t hfence => cases hcode
  | code t hfence => cases hcode
  | separator t _ hsep =>
    rw [if_pos hsep]
    rfl
  | firstRow _ hsep =>
    -- the first row is a header row: its cells are of the other kind
    have hopen : TagsIn [.op tableName] openTable := TagsIn.tag (by decide) (tagsIn_word _ _)
    have hth : cellSpans thName (openTable ++ rowWord thName line) = (cellsOf line).map word := by
      rw [cellSpans, Inert.spans_append (List.cons_ne_nil _ _)
        (Inert.of_head fun hmem => absurd (hopen _ hmem) (by decide)), ← cellSpans,
        cellSpans_rowWord (by decide)]
    have hheader : TagsIn (.op tableName :: rowTags thName)
        (openTable ++ rowWord thName line) :=
      (hopen.mono (by decide)).append ((tagsIn_rowWord _ line).mono (by decide))
    have htd : cellSpans tdName (openTable ++ rowWord thName line) = [] :=
      cellSpans_eq_nil hheader (by decide)
    rw [hth, htd, List.append_nil, hspell, hsep]
    rfl
  | row _ hsep =>
    rw [cellSpans_eq_nil (tagsIn_rowWord tdName line) (by decide),
      cellSpans_rowWord (by decide), List.nil_append, hspell, hsep]
    rfl
  | plain _ hplain =>
    rw [htable] at hplain
    cases hplain
  | plainAfter _ hplain =>
    rw [htable] at hplain
    cases hplain

/-- A table line outside code blocks with `k` pipes has the `k - 1` cells between them on the
    page if and only if it is not taken for a separator and no pipe is next to the one at
    either end. -/
theorem renderMarkdown_cells_iff {md line : List Char} {before after : List (List Char)}
    (hlines : lines md = before ++ line :: after) (hout : before.countP isFence % 2 = 0)
    (htable : isTableLine line) (hpipes : 2 ≤ line.count '|') :
    ∃ start chunk rest r r', renderMarkdown md = .ok (start ++ chunk ++ rest) ∧
      renderLines before = .ok r ∧ r.html = start ∧
      renderLines (before ++ [line]) = .ok r' ∧ r'.html = start ++ chunk ∧
      (betweenPipes line).length = line.count '|' - 1 ∧
      (cellTexts chunk = (betweenPipes line).map (fun c => escapeHtml (trim c)) ↔
        contains "---" line = false ∧ (innerText line).head? ≠ some '|' ∧
          (innerText line).getLast? ≠ some '|') := by
  have hcode : (Mode.start.after before).inCodeBlock = false := by
    simp [Mode.inCodeBlock_after, hout, Mode.start]
  -- the page before the line, what the line adds, and the page behind it
  have hpage : Mode.start.page (lines md) = Mode.start.emitAll before ++
      ((Mode.start.after before).emit line ++
        ((Mode.start.after before).next line).page after) := by
    rw [hlines, Mode.page, Mode.emitAll_append, Mode.after_append, List.append_assoc,
      ← Mode.page_cons, Mode.page]
  have hemit : Mode.start.emitAll (before ++ [line]) =
      Mode.start.emitAll before ++ (Mode.start.after before).emit line := by
    rw [Mode.emitAll_append, Mode.emitAll, Mode.emitAll, List.append_nil]
  refine ⟨htmlHead ++ spell (Mode.start.emitAll before),
    spell ((Mode.start.after before).emit line),
    spell (((Mode.start.after before).next line).page after) ++ htmlTail, _, _, ?_,
    renderLines_eq_spell before, rfl, renderLines_eq_spell (before ++ [line]), ?_, ?_, ?_⟩
  · rw [renderMarkdown_eq_spell, hpage, spell_append, spell_append]
    simp only [List.append_assoc]
  · -- the loop up to and with the line
    rw [hemit, spell_append, List.append_assoc]
  · rw [eq_innerText htable hpipes, betweenPipes_eq, length_splitOn, List.count_cons_self,
      List.count_append, List.count_singleton_self]
    omega
  · rw [((Mode.start.after before).step line).cellTexts hcode htable]
    have hinner := eq_innerText htable hpipes
    generalize innerText line = inner at hinner ⊢
    have hcells : (cellsOf line).map escapeHtml =
        ((trimMatches '|' line).splitOn '|').map fun c => escapeHtml (trim c) := by
      rw [cellsOf, List.map_map]
      rfl
    cases hsep : contains "---" line
    · -- the line is taken for a row
      have hsep' : isSeparatorLine line = false := hsep
      rw [hsep', if_neg (by simp), hcells, hinner, betweenPipes_eq, cellsOf_eq_iff]
      simp
    · -- it is taken for a separator and adds no cells
      have hsep' : isSeparatorLine line = true := hsep
      rw [hsep', if_pos rfl, hinner, betweenPipes_eq]
      simp

/-- A row with an empty cell in front loses it, and a row with three dashes in a cell is lost,
    though neither is a separator. -/
theorem renderMarkdown_cells_lost :
    (¬ IsSeparatorRow "|| a |".toList ∧
      ∃ r chunk, renderLines ["|| a |".toList] = .ok r ∧ r.html = htmlHead ++ chunk ∧
        cellTexts chunk ≠ (betweenPipes "|| a |".toList).map fun c => escapeHtml (trim c)) ∧
    ¬ IsSeparatorRow "| a---b |".toList ∧
      ∃ r chunk, renderLines ["| a---b |".toList] = .ok r ∧ r.html = htmlHead ++ chunk ∧
        cellTexts chunk ≠ (betweenPipes "| a---b |".toList).map fun c => escapeHtml (trim c) := by
  refine ⟨⟨by decide, _, _, renderLines_eq_spell _, rfl, ?_⟩, by decide, _, _,
    renderLines_eq_spell _, rfl, ?_⟩
  · decide
  · decide

/-- A row that keeps its cells. -/
theorem renderMarkdown_cells_kept :
    ∃ start chunk rest r r', renderMarkdown "| a | |".toList = .ok (start ++ chunk ++ rest) ∧
      renderLines [] = .ok r ∧ r.html = start ∧
      renderLines ([] ++ ["| a | |".toList]) = .ok r' ∧ r'.html = start ++ chunk ∧
      (betweenPipes "| a | |".toList).length = "| a | |".toList.count '|' - 1 ∧
      (cellTexts chunk =
          (betweenPipes "| a | |".toList).map (fun c => escapeHtml (trim c)) ↔
        contains "---" "| a | |".toList = false ∧
          (innerText "| a | |".toList).head? ≠ some '|' ∧
          (innerText "| a | |".toList).getLast? ≠ some '|') := by
  have hlines : lines "| a | |".toList = [] ++ "| a | |".toList :: [] := by decide
  exact renderMarkdown_cells_iff hlines (by decide) (by decide) (by decide)

end PpService
