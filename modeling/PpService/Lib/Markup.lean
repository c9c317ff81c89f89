/-
  TAGGED TEXT: a word of characters and tags, spelled with the characters escaped and the tags
  in angle brackets.

  A tag's label has letters and digits only, so it can be read back: the labels, the texts
  between two tags and the removal of a tag are computed on the spelled text alone, and agree
  with what the word says (`tags_spell`, `spells_tag`).  And it shows the characters of the word,
  no more and no less (`shown_spell`).

  What makes this work is that the characters between brackets are known.  A name has letters and
  digits, so neither bracket is in a label (`Tag.not_mem_label`); an escaped character has no
  bracket at all (`lt_not_mem_escape`).  So a tag stands in the page where the word has it, and
  nowhere else.

  `WellNested` is nesting in the usual sense, computed with a stack of open tags (`nestAll`), and
  `shown` is the page as a reader has it.
-/
import Mathlib.Data.List.Basic
import PpService.Lib.Delim

namespace Markup

open Delim

/-! ## Words -/

/-- What a tag may be called. -/
structure Name where
  letters : List Char
  alphanum : letters.all Char.isAlphanum
  deriving DecidableEq

/-- An opening or a closing tag. -/
inductive Tag where
  | op (n : Name)
  | cl (n : Name)
  deriving DecidableEq

/-- What stands between the angle brackets. -/
def Tag.label : Tag → List Char
  | .op n => n.letters
  | .cl n => '/' :: n.letters

/-- The tag as it stands in a page. -/
def Tag.literal (t : Tag) : List Char := '<' :: (t.label ++ ['>'])

/-- A letter of a word: a character of the text or a tag. -/
inductive Sym where
  | ch (c : Char)
  | tag (t : Tag)
  deriving DecidableEq

def Sym.tag? : Sym → Option Tag
  | .ch _ => none
  | .tag t => some t

/-- The labels of the tags. -/
def labels (w : List Sym) : List (List Char) := (w.filterMap Sym.tag?).map Tag.label

/-- The labels of two words one after the other. -/
@[simp] theorem labels_append (w v : List Sym) : labels (w ++ v) = labels w ++ labels v := by
  rw [labels, List.filterMap_append, List.map_append, labels, labels]

/-- A tag in front brings its label; a character brings none (`labels_word`). -/
@[simp] theorem labels_tag (t : Tag) (w : List Sym) :
    labels (.tag t :: w) = t.label :: labels w := rfl

/-- A word without tags has no labels. -/
theorem labels_eq_nil {w : List Sym} (h : ∀ t, Sym.tag t ∉ w) : labels w = [] := by
  have hnone : w.filterMap Sym.tag? = [] := by
    refine List.filterMap_eq_nil_iff.mpr fun x hx => ?_
    cases x with
    | ch c => rfl
    | tag t => exact absurd hx (h t)
  rw [labels, hnone, List.map_nil]

/-- The text without tags. -/
def word (s : List Char) : List Sym := s.map .ch

/-- A text has no tags in it: not even one that is spelled like a tag. -/
theorem tag_not_mem_word (t : Tag) (s : List Char) : Sym.tag t ∉ word s := by
  simp [word]

/-- So it brings no labels. -/
@[simp] theorem labels_word (s : List Char) : labels (word s) = [] :=
  labels_eq_nil fun t => tag_not_mem_word t s

/-- A tag around a word. -/
def element (n : Name) (w : List Sym) : List Sym := .tag (.op n) :: (w ++ [.tag (.cl n)])

/-- The word's tags are among `ts`. -/
def TagsIn (ts : List Tag) (w : List Sym) : Prop := ∀ t, Sym.tag t ∈ w → t ∈ ts

theorem TagsIn.mono {ts us : List Tag} {w : List Sym} (h : TagsIn ts w) (hsub : ∀ t ∈ ts, t ∈ us) :
    TagsIn us w :=
  fun t ht => hsub t (h t ht)

/-- `TagsIn` for two words one after the other. -/
theorem TagsIn.append {ts : List Tag} {w v : List Sym} (hw : TagsIn ts w) (hv : TagsIn ts v) :
    TagsIn ts (w ++ v) := by
  intro t ht
  rcases List.mem_append.mp ht with h | h
  · exact hw t h
  · exact hv t h

/-- A text keeps to whatever tags. -/
theorem tagsIn_word (ts : List Tag) (s : List Char) : TagsIn ts (word s) :=
  fun t ht => absurd ht (tag_not_mem_word t s)

/-- A tag in front has to be one of them. -/
theorem TagsIn.tag {ts : List Tag} {t : Tag} (ht : t ∈ ts) {w : List Sym} (hw : TagsIn ts w) :
    TagsIn ts (.tag t :: w) := by
  intro u hu
  rcases List.mem_cons.mp hu with h | h
  · rwa [Sym.tag.inj h]
  · exact hw u h

/-- An element's two tags have to be among them, and those of the word inside. -/
theorem TagsIn.element {ts : List Tag} {n : Name} {w : List Sym} (hw : TagsIn ts w)
    (hop : .op n ∈ ts) (hcl : .cl n ∈ ts) : TagsIn ts (element n w) :=
  TagsIn.tag hop (hw.append (TagsIn.tag hcl (tagsIn_word ts [])))

/-- The labels of such a word are the labels of these tags. -/
theorem TagsIn.label_mem {ts : List Tag} {w : List Sym} (hw : TagsIn ts w) :
    ∀ l ∈ labels w, l ∈ ts.map Tag.label := by
  intro l hl
  obtain ⟨t, ht, rfl⟩ := List.mem_map.mp hl
  obtain ⟨x, hx, hxt⟩ := List.mem_filterMap.mp ht
  cases x with
  | ch c => cases hxt
  | tag u =>
    obtain rfl := Option.some.inj hxt
    exact List.mem_map_of_mem (hw u hx)

/-- A text as a spelling of its characters, letter for letter: so the laws of spellings (`Spells`)
    hold between a text and its word. -/
theorem word_eq_flatMap (s : List Char) : word s = s.flatMap fun c => [.ch c] :=
  List.map_eq_flatMap

/-- The letters of a word are the characters, so a delimiter is where the text has it. -/
theorem spells_ch {d : List Char} (hd : d ≠ []) : Spells (fun c => [Sym.ch c]) d :=
  Spells.of_letters Sym.ch hd (fun _ => List.cons_ne_nil _ _) (fun _ _ => rfl)
    fun _ _ _ hc => (Sym.ch.inj (List.mem_singleton.mp hc)).symm

/-- The leftmost occurrence in a word without tags is the one in the text. -/
theorem cut?_word {d : List Char} (hd : d ≠ []) (s : List Char) :
    cut? (word d) (word s) = (cut? d s).map fun p => (word p.1, word p.2) := by
  simp only [word_eq_flatMap]
  exact spells_ch hd s

/-- And there are as many of them. -/
theorem occurrences_word {d : List Char} (hd : d ≠ []) (s : List Char) :
    occurrences (word d) (word s) = occurrences d s := by
  have hne : (d.flatMap fun c => [Sym.ch c]) ≠ [] := by
    rw [← List.map_eq_flatMap]
    simpa using hd
  rw [word_eq_flatMap, word_eq_flatMap]
  exact (spells_ch hd).occurrences hd hne s

/-! ## Spelling -/

/-- A character as it is spelled in the text of a page: three of them as entities. -/
def escape (c : Char) : List Char :=
  if c = '&' then "&amp;".toList
  else if c = '<' then "&lt;".toList
  else if c = '>' then "&gt;".toList
  else [c]

/-- A letter of the word as it is spelled: a character escaped, a tag as it stands. -/
def Sym.spell : Sym → List Char
  | .ch c => escape c
  | .tag t => t.literal

/-- The page a word spells. -/
def spell (w : List Sym) : List Char := w.flatMap Sym.spell

@[simp] theorem spell_nil : spell [] = [] := rfl

/-- Words one after the other are spelled one after the other. -/
@[simp] theorem spell_append (w v : List Sym) : spell (w ++ v) = spell w ++ spell v :=
  List.flatMap_append

theorem spell_cons (x : Sym) (w : List Sym) : spell (x :: w) = x.spell ++ spell w := rfl

/-- A text is spelled by escaping its characters. -/
theorem spell_word (s : List Char) : spell (word s) = s.flatMap escape := by
  rw [spell, word, List.flatMap_map]
  rfl

/-- No character is spelled by nothing. -/
theorem escape_ne_nil (c : Char) : escape c ≠ [] := by
  rw [escape]
  split_ifs <;> simp

/-- No escaped character has a `<`: it comes from tags alone. -/
theorem lt_not_mem_escape (c : Char) : '<' ∉ escape c := by
  rw [escape]
  split_ifs with hamp hlt hgt
  · -- the three entities, then a character that is not `<`
    decide
  · decide
  · decide
  · simpa using fun h : '<' = c => hlt h.symm

theorem lt_not_mem_spell_word (s : List Char) : '<' ∉ spell (word s) := by
  rw [spell_word]
  intro h
  obtain ⟨c, -, hc⟩ := List.mem_flatMap.mp h
  exact lt_not_mem_escape c hc

/-- Where there is a tag there is a `<`. -/
theorem lt_mem_spell {t : Tag} {w : List Sym} (h : Sym.tag t ∈ w) : '<' ∈ spell w :=
  List.mem_flatMap.mpr ⟨_, h, List.mem_cons_self⟩

/-- No escaped character has a `>` either: it only ends tags. -/
theorem gt_not_mem_escape (c : Char) : '>' ∉ escape c := by
  rw [escape]
  split_ifs with hamp hlt hgt
  · -- as for `<`
    decide
  · decide
  · decide
  · simpa using fun h : '>' = c => hgt h.symm

/-- A name has no other characters than letters and digits. -/
theorem Name.not_mem {n : Name} {c : Char} (hc : c.isAlphanum = false) : c ∉ n.letters := by
  intro hmem
  rw [List.all_eq_true.mp n.alphanum c hmem] at hc
  cases hc

/-- A label may have a slash besides. -/
theorem Tag.not_mem_label {t : Tag} {c : Char} (hc : c.isAlphanum = false) (hslash : c ≠ '/') :
    c ∉ t.label := by
  cases t with
  -- an opening tag's label is its name, a closing one's has a slash in front
  | op n => exact Name.not_mem hc
  | cl n =>
    rw [Tag.label, List.mem_cons, not_or]
    exact ⟨hslash, Name.not_mem hc⟩

theorem Tag.lt_not_mem_label (t : Tag) : '<' ∉ t.label :=
  Tag.not_mem_label (by decide) (by decide)

/-- The label of a tag ends where the tag does. -/
theorem Tag.gt_not_mem_label (t : Tag) : '>' ∉ t.label :=
  Tag.not_mem_label (by decide) (by decide)

/-- A label names one tag. -/
theorem Tag.label_injective {t u : Tag} (h : t.label = u.label) : t = u := by
  have hslash : ∀ n : Name, '/' ∉ n.letters := fun n => Name.not_mem (by decide)
  cases t with
  | op n =>
    cases u with
    | op m =>
      obtain ⟨letters, _⟩ := n
      obtain rfl : letters = m.letters := h
      rfl
    | cl m =>
      -- an opening and a closing label differ in the slash
      have hmem : '/' ∈ (Tag.cl m).label := List.mem_cons_self
      rw [← h] at hmem
      exact absurd hmem (hslash n)
  | cl n =>
    cases u with
    | op m =>
      have hmem : '/' ∈ (Tag.cl n).label := List.mem_cons_self
      rw [h] at hmem
      exact absurd hmem (hslash m)
    | cl m =>
      obtain ⟨letters, _⟩ := n
      obtain rfl : letters = m.letters := (List.cons.inj h).2
      rfl

/-- An element is spelled between its two tags. -/
theorem spell_element (n : Name) (w : List Sym) :
    spell (element n w) = (Tag.op n).literal ++ spell w ++ (Tag.cl n).literal := by
  rw [element, spell_cons, spell_append, Sym.spell, List.append_assoc]
  simp [spell, Sym.spell]

/-! ## Text that is no markup -/

/-- The three entities that escaping puts in. -/
def entities : List (List Char) := ["&amp;".toList, "&lt;".toList, "&gt;".toList]

/-- No angle bracket, and every ampersand starts an entity. -/
structure CleanText (s : List Char) : Prop where
  no_lt : '<' ∉ s
  no_gt : '>' ∉ s
  entity : ∀ a b, s = a ++ '&' :: b → ∃ e ∈ entities, e <+: '&' :: b

/-- An escaped character is clean: it is an entity, or none of the three characters. -/
theorem cleanText_escape (c : Char) : CleanText (escape c) := by
  refine ⟨lt_not_mem_escape c, gt_not_mem_escape c, fun a b h => ?_⟩
  -- an ampersand of an entity is its first character
  have hentity : ∀ e ∈ entities, e = a ++ '&' :: b → ∃ e ∈ entities, e <+: '&' :: b := by
    intro e he heq
    have hall : ∀ e ∈ entities, e.tail.count '&' = 0 := by decide
    have hone := hall e he
    cases a with
    | nil => exact ⟨e, he, heq ▸ List.prefix_rfl⟩
    | cons x a =>
      rw [heq, List.cons_append, List.tail_cons, List.count_append,
        List.count_cons_self] at hone
      omega
  rw [escape] at h
  split_ifs at h with hamp hlt hgt
  · exact hentity _ (by decide) h
  · exact hentity _ (by decide) h
  · exact hentity _ (by decide) h
  · -- an unescaped character is no ampersand, so it starts nothing
    cases a with
    | nil => exact absurd (List.cons.inj h).1 hamp
    | cons x a => cases a <;> cases (List.cons.inj h).2

/-- The text is put together from some of the literals and from clean text. -/
def Clean (literals : List (List Char)) (s : List Char) : Prop :=
  ∃ pieces : List (List Char), pieces.flatten = s ∧
    ∀ p ∈ pieces, p ∈ literals ∨ CleanText p

/-- A spelled word is put together from the tags it may have and from escaped characters. -/
theorem clean_spell {literals : List (List Char)} {ts : List Tag} {w : List Sym}
    (hw : TagsIn ts w) (h : ∀ t ∈ ts, t.literal ∈ literals) : Clean literals (spell w) := by
  refine ⟨w.map Sym.spell, List.flatMap_def.symm, fun p hp => ?_⟩
  obtain ⟨x, hx, rfl⟩ := List.mem_map.mp hp
  cases x with
  | ch c => exact .inr (cleanText_escape c)
  | tag t => exact .inl (h t (hw t hx))

/-! ## What can be read off a spelled text -/

/-- A character that is in no label and in no entity. -/
def Plain (c : Char) : Prop := c.isAlphanum = false ∧ c ∉ ['&', ';', '<', '>', '/']

instance (c : Char) : Decidable (Plain c) := inferInstanceAs (Decidable (_ ∧ _))

/-- A plain character is spelled by itself. -/
theorem Plain.escape {c : Char} (h : Plain c) : escape c = [c] := by
  have hne := h.2
  simp only [List.mem_cons, not_or] at hne
  rw [Markup.escape, if_neg hne.1, if_neg hne.2.2.1, if_neg hne.2.2.2.1]

theorem spell_word_of_plain {d : List Char} (h : ∀ c ∈ d, Plain c) : spell (word d) = d := by
  rw [spell_word, List.flatMap_congr fun c hc => (h c hc).escape, List.flatMap_singleton']

/-- A plain character that is seen in a page is that very letter of the word: an entity has
    letters, `&` and `;` only, and a tag letters, digits, slash and brackets. -/
theorem Plain.eq_of_mem_spell {c : Char} (h : Plain c) {x : Sym} (hx : c ∈ x.spell) :
    x = .ch c := by
  obtain ⟨halpha, hnot⟩ := h
  cases x with
  | ch e =>
    -- a character is spelled by itself or by an entity
    have hletters : ∀ d ∈ entities, d.all fun a =>
        a.isAlphanum ∨ a ∈ ['&', ';', '<', '>', '/'] := by decide
    have hentity : ∀ d ∈ entities, c ∉ d := by
      intro d hd hc
      rcases of_decide_eq_true (List.all_eq_true.mp (hletters d hd) c hc) with ha | ha
      · rw [halpha] at ha
        cases ha
      · exact hnot ha
    rw [Sym.spell, Markup.escape] at hx
    split_ifs at hx
    · exact absurd hx (hentity _ (by decide))
    · exact absurd hx (hentity _ (by decide))
    · exact absurd hx (hentity _ (by decide))
    · rw [List.mem_singleton.mp hx]
  | tag t =>
    simp only [List.mem_cons, not_or] at hnot
    rw [Sym.spell, Tag.literal, List.mem_cons, List.mem_append, List.mem_singleton] at hx
    rcases hx with hlt | hlabel | hgt
    · exact absurd hlt hnot.2.2.1
    · exact absurd hlabel (Tag.not_mem_label halpha hnot.2.2.2.2.1)
    · exact absurd hgt hnot.2.2.2.1

/-- Plain characters are where the word has them. -/
theorem spells_word {d : List Char} (hd : d ≠ []) (h : ∀ c ∈ d, Plain c) :
    Spells Sym.spell (word d) := by
  have hword : ∀ x ∈ word d, ∃ c, Plain c ∧ x = .ch c := by
    intro x hx
    obtain ⟨c, hc, rfl⟩ := List.mem_map.mp hx
    exact ⟨c, h c hc, rfl⟩
  -- each letter of the delimiter is spelled by one character of its own
  refine Spells.of_letters (fun x => x.spell.headD ' ') (by simpa [word] using hd) ?_ ?_ ?_
  · rintro (c | t)
    · exact escape_ne_nil c
    · exact List.cons_ne_nil _ _
  · intro x hx
    obtain ⟨c, hc, rfl⟩ := hword x hx
    rw [Sym.spell, hc.escape]
    rfl
  · intro x hx y hy
    obtain ⟨c, hc, rfl⟩ := hword x hx
    rw [Sym.spell, hc.escape] at hy
    exact hc.eq_of_mem_spell hy

/-- A tag stands where the word has it. -/
theorem spells_tag (t : Tag) : Spells Sym.spell [.tag t] := by
  refine Spells.of_inert (List.cons_ne_nil _ _) fun x hx => ?_
  cases x with
  | ch c => exact Inert.of_head (lt_not_mem_escape c)
  | tag u =>
    -- another tag could only agree with this one from its `<` on
    have hrest : Inert t.literal (u.label ++ ['>']) := by
      refine Inert.of_head ?_
      rw [List.mem_append, List.mem_singleton, not_or]
      exact ⟨u.lt_not_mem_label, by decide⟩
    refine Inert.cons (fun s hpre => hx ?_) hrest
    -- the label ends at the first `>`
    obtain ⟨r, hr⟩ := (List.cons_prefix_cons.mp hpre).2
    have hgt : ['>'] ≠ [] := List.cons_ne_nil _ _
    have ht : Inert ['>'] t.label := Inert.of_head t.gt_not_mem_label
    have hu : Inert ['>'] u.label := Inert.of_head u.gt_not_mem_label
    have hcut := ht.cut?_delim hgt r
    rw [← List.append_assoc, hr, List.append_assoc, hu.cut?_delim hgt] at hcut
    obtain ⟨hlabel, -⟩ := Prod.mk.inj (Option.some.inj hcut)
    rw [Tag.label_injective hlabel]

/-- What stands between angle brackets. -/
def tags (s : List Char) : List (List Char) := spans ['<'] ['>'] s

/-- The labels of a word can be read off its page: what stands between `<` and the next `>`. -/
theorem tags_spell (w : List Sym) : tags (spell w) = labels w := by
  have hlt : ['<'] ≠ [] := List.cons_ne_nil _ _
  have hgt : ['>'] ≠ [] := List.cons_ne_nil _ _
  induction w with
  | nil => rfl
  | cons x w ih =>
    cases x with
    | ch c =>
      have hinert : Inert ['<'] (escape c) := Inert.of_head (lt_not_mem_escape c)
      rw [spell_cons, Sym.spell, tags, hinert.spans_append hlt]
      exact ih
    | tag t =>
      -- a tag opens at its `<` and closes at its `>`, with no other bracket between
      have hlabel : Inert ['<'] (t.label ++ ['>']) := by
        refine Inert.of_head ?_
        rw [List.mem_append, List.mem_singleton, not_or]
        exact ⟨t.lt_not_mem_label, by decide⟩
      have hspell : spell (.tag t :: w) = ['<'] ++ (t.label ++ (['>'] ++ spell w)) := by
        rw [spell_cons, Sym.spell, Tag.literal]
        simp
      rw [hspell, tags, spans_of_span hlt hgt hlabel (Inert.of_head t.gt_not_mem_label),
        labels_tag]
      exact congrArg (t.label :: ·) ih

/-- The pieces between two tags can be read off the page too. -/
theorem spans_spell (t u : Tag) (w : List Sym) :
    spans t.literal u.literal (spell w) = (spans [.tag t] [.tag u] w).map spell := by
  have hne : [Sym.tag t].flatMap Sym.spell ≠ [] := List.cons_ne_nil _ _
  have h := (spells_tag t).spans (spells_tag u) (List.cons_ne_nil _ _) hne w
  rw [List.flatMap_singleton, List.flatMap_singleton] at h
  exact h

/-- Taking a tag out of the page takes it out of the word. -/
theorem removeAll_spell (t : Tag) (w : List Sym) :
    removeAll t.literal (spell w) = spell (w.filter (· ≠ .tag t)) := by
  have hne : [Sym.tag t].flatMap Sym.spell ≠ [] := List.cons_ne_nil _ _
  have h := (spells_tag t).removeAll (List.cons_ne_nil _ _) hne w
  rw [removeAll_singleton, List.flatMap_singleton] at h
  exact h

/-! ## Plain delimiters -/

theorem word_ne_nil {d : List Char} (hd : d ≠ []) : word d ≠ [] := by
  simpa [word] using hd

/-- Pairs of plain delimiters are the same in the page and in the word, so marking them may be done
    on either. -/
theorem wrap_spell {d : List Char} (hd : d ≠ []) (hplain : ∀ c ∈ d, Plain c)
    (op cl w : List Sym) :
    wrap d (spell op) (spell cl) (spell w) = spell (wrap (word d) op cl w) := by
  have hdelim : (word d).flatMap Sym.spell = d := spell_word_of_plain hplain
  have h := (spells_word hd hplain).wrap (word_ne_nil hd) (by rwa [hdelim]) op cl w
  rwa [hdelim] at h

/-- Plain delimiters can be counted in the page. -/
theorem occurrences_spell {d : List Char} (hd : d ≠ []) (hplain : ∀ c ∈ d, Plain c)
    (w : List Sym) :
    occurrences d (spell w) = occurrences (word d) w := by
  have hdelim : (word d).flatMap Sym.spell = d := spell_word_of_plain hplain
  have h := (spells_word hd hplain).occurrences (word_ne_nil hd) (by rwa [hdelim]) w
  rwa [hdelim] at h

/-- And the first `n` of them can be taken out there. -/
theorem remove_spell {d : List Char} (hd : d ≠ []) (hplain : ∀ c ∈ d, Plain c) (n : Nat)
    (w : List Sym) :
    remove d n (spell w) = spell (remove (word d) n w) := by
  have hdelim : (word d).flatMap Sym.spell = d := spell_word_of_plain hplain
  have h := (spells_word hd hplain).remove (word_ne_nil hd) (by rwa [hdelim]) n w
  rwa [hdelim] at h

/-- Tags put around the pairs and removed again: the pairs of delimiters are gone. -/
theorem removeAll_wrap_spell {d : List Char} (hd : d ≠ []) (hplain : ∀ c ∈ d, Plain c)
    (op cl : Tag) {w : List Sym} (hw : ∀ x ∈ w, x ≠ .tag op ∧ x ≠ .tag cl) :
    removeAll op.literal (removeAll cl.literal (wrap d op.literal cl.literal (spell w))) =
      remove d (2 * (occurrences d (spell w) / 2)) (spell w) := by
  have hop : spell [.tag op] = op.literal := List.flatMap_singleton _ _
  have hcl : spell [.tag cl] = cl.literal := List.flatMap_singleton _ _
  have hkeep : ∀ x ∈ word d, (decide (x ≠ .tag op) && decide (x ≠ .tag cl)) = true := by
    intro x hx
    obtain ⟨c, -, rfl⟩ := List.mem_map.mp hx
    rfl
  -- on the word the marks are single letters, so removing them is a filter
  have hwrap := wrap_spell hd hplain [.tag op] [.tag cl] w
  rw [hop, hcl] at hwrap
  rw [hwrap, removeAll_spell, removeAll_spell, List.filter_filter, remove_spell hd hplain,
    occurrences_spell hd hplain]
  refine congrArg spell (filter_wrap (word_ne_nil hd) _ (by simp) (by simp) hkeep fun x hx => ?_)
  simpa using hw x hx

/-! ## Nesting -/

/-- The open tags, the innermost one first, after one more tag. -/
def nest (stack : List (List Char)) : List Char → Option (List (List Char))
  | '/' :: n => if stack.head? = some n then some stack.tail else none
  | n => some (n :: stack)

/-- The open tags after all of them. -/
def nestAll (stack : List (List Char)) (labels : List (List Char)) :
    Option (List (List Char)) :=
  labels.foldlM nest stack

/-- Every tag closes the one that was opened last, and all are closed at the end. -/
def WellNested (labels : List (List Char)) : Prop := nestAll [] labels = some []

instance (labels : List (List Char)) : Decidable (WellNested labels) :=
  inferInstanceAs (Decidable (_ = _))

/-- No tag leaves the stack as it is. -/
@[simp] theorem nestAll_nil (stack : List (List Char)) : nestAll stack [] = some stack := rfl

/-- The tags of two words in a row: the second starts with what the first has left open. -/
theorem nestAll_append (stack l k : List (List Char)) :
    nestAll stack (l ++ k) = (nestAll stack l).bind (nestAll · k) :=
  List.foldlM_append

/-- An opening tag goes onto the stack: its label is no closing one, as names have no slash. -/
theorem nest_op (stack : List (List Char)) (n : Name) :
    nest stack (Tag.op n).label = some (n.letters :: stack) := by
  have hslash : '/' ∉ n.letters := Name.not_mem (by decide)
  rw [Tag.label, nest]
  rintro m hm
  exact hslash (hm ▸ List.mem_cons_self)

/-- A closing tag takes off the one that was opened last. -/
theorem nest_cl (stack : List (List Char)) (n : Name) :
    nest (n.letters :: stack) (Tag.cl n).label = some stack := by
  rw [Tag.label, nest, List.head?_cons, if_pos rfl, List.tail_cons]

/-- `nest_op` in front of further tags. -/
@[simp] theorem nestAll_op (stack : List (List Char)) (n : Name) (l : List (List Char)) :
    nestAll stack ((Tag.op n).label :: l) = nestAll (n.letters :: stack) l := by
  rw [nestAll, List.foldlM_cons, nest_op]
  rfl

/-- `nest_cl` in front of further tags. -/
@[simp] theorem nestAll_cl (stack : List (List Char)) (n : Name) (l : List (List Char)) :
    nestAll (n.letters :: stack) ((Tag.cl n).label :: l) = nestAll stack l := by
  rw [nestAll, List.foldlM_cons, nest_cl]
  rfl

/-! ## What a reader sees -/

/-- What a reader sees of a letter. -/
def Sym.char? : Sym → Option Char
  | .ch c => some c
  | .tag _ => none

/-- The characters. -/
def text (w : List Sym) : List Char := w.filterMap Sym.char?

/-- The characters of two words one after the other. -/
@[simp] theorem text_append (w v : List Sym) : text (w ++ v) = text w ++ text v :=
  List.filterMap_append

/-- The characters of a text are the text. -/
@[simp] theorem text_word (s : List Char) : text (word s) = s := by
  induction s with
  | nil => rfl
  | cons c s ih => exact congrArg (c :: ·) ih

/-- Of a tag there is nothing to see. -/
@[simp] theorem text_tag (t : Tag) (w : List Sym) : text (.tag t :: w) = text w := rfl

/-- Of an element there is its inside to see. -/
@[simp] theorem text_element (n : Name) (w : List Sym) : text (element n w) = text w := by
  rw [element, text_tag, text_append, text_tag]
  exact List.append_nil _

theorem text_flatMap {α : Type*} (f : α → List Sym) (l : List α) :
    text (l.flatMap f) = l.flatMap fun a => text (f a) := by
  induction l with
  | nil => rfl
  | cons a l ih => rw [List.flatMap_cons, text_append, ih, List.flatMap_cons]

/-- The entity at the front: its character, and how long it is without its first. -/
def entity? (s : List Char) : Option (Char × Nat) :=
  if "&amp;".toList.isPrefixOf s then some ('&', 4)
  else if "&lt;".toList.isPrefixOf s then some ('<', 3)
  else if "&gt;".toList.isPrefixOf s then some ('>', 3)
  else none

/-- A page read from left to right, without what stands in angle brackets and with the entities
    as the characters they are; `skip` characters are the rest of an entity. -/
def readFrom : Nat → Bool → List Char → List Char
  | _, _, [] => []
  | skip + 1, inTag, _ :: s => readFrom skip inTag s
  | 0, true, c :: s => readFrom 0 (c ≠ '>') s
  | 0, false, c :: s =>
    if c = '<' then readFrom 0 true s
    else
      match entity? (c :: s) with
      | some (e, skip) => e :: readFrom skip false s
      | none => c :: readFrom 0 false s

/-- What a page shows. -/
def shown (page : List Char) : List Char := readFrom 0 false page

theorem readFrom_skip (x s : List Char) : readFrom x.length false (x ++ s) = shown s := by
  induction x with
  | nil => rfl
  | cons c x ih => exact ih

/-- An escaped character is shown as itself, whatever comes after it. -/
theorem shown_escape (c : Char) (s : List Char) : shown (escape c ++ s) = c :: shown s := by
  rw [escape]
  split_ifs with hamp hlt hgt
  · subst hamp
    exact congrArg ('&' :: ·) (readFrom_skip "amp;".toList s)
  · subst hlt
    exact congrArg ('<' :: ·) (readFrom_skip "lt;".toList s)
  · subst hgt
    exact congrArg ('>' :: ·) (readFrom_skip "gt;".toList s)
  · -- no entity starts with another character
    have hnone : entity? (c :: s) = none := by
      have hne : ¬ '&' = c := fun h => hamp h.symm
      simp [entity?, hne]
    rw [List.singleton_append, shown, readFrom, if_neg hlt, hnone]
    rfl

/-- Nothing is shown of a tag. -/
theorem shown_literal (t : Tag) (s : List Char) : shown (t.literal ++ s) = shown s := by
  -- inside the brackets nothing is shown up to the `>`
  have hlabel : ∀ l : List Char, '>' ∉ l → readFrom 0 true (l ++ '>' :: s) = shown s := by
    intro l hl
    induction l with
    | nil => rfl
    | cons c l ih =>
      rw [List.mem_cons, not_or] at hl
      have hc : decide (c ≠ '>') = true := by simpa using fun h : c = '>' => hl.1 h.symm
      rw [List.cons_append, readFrom, hc]
      exact ih hl.2
  have hliteral : t.literal ++ s = '<' :: (t.label ++ '>' :: s) := by simp [Tag.literal]
  rw [hliteral, shown, readFrom, if_pos rfl]
  exact hlabel t.label t.gt_not_mem_label

/-- **A spelled word shows its characters**, whatever comes after it. -/
theorem shown_spell (w : List Sym) (s : List Char) : shown (spell w ++ s) = text w ++ shown s := by
  induction w with
  | nil => rfl
  | cons x w ih =>
    rw [spell_cons, List.append_assoc]
    cases x with
    | ch c =>
      rw [Sym.spell, shown_escape, ih]
      rfl
    | tag t =>
      rw [Sym.spell, shown_literal, ih]
      rfl

end Markup
