/-
  INLINE FORMATTING: what `process_inline` makes of a text, as a word of characters and tags.

  A loop that replaces two delimiters a round ends after half as many rounds as there are
  delimiters, with the text that has every pair replaced (`rounds_wrap`).  The second loop reads
  what the first one wrote: it pairs the stars of the text as if there were no code spans, so a
  span keeps its text only if none of the stars in it is paired (`processInline_code_iff`).

  A page is followed on words: letters that are characters or tags.  Backticks and stars are in
  no tag and in no entity, so each loop does the same to the word as to its spelling
  (`wrap_codeRule`, `wrap_strongRule`), and what holds of words holds of pages
  (`processInline_eq_spell`).

  The code spans are the hard part, because the second loop runs over them.  The text is taken
  apart span by span (`StarsOutside`, `strongFrom`), each part with the number of stars before it:
  whether a star opens or closes depends on that number alone.
-/
import PpService.Markdown
import PpService.Lib.Markup

namespace PpService

open Delim Markup

/-! ## The loops -/

namespace InlineRule

/-- A loop goes once round for every pair of delimiters and replaces them all. -/
theorem rounds_wrap (r : InlineRule) (s : List Char) :
    Loop.Rounds r.loop (occurrences r.delim s / 2) s (wrap r.delim r.opening r.closing s) ∧
      r.round (wrap r.delim r.opening r.closing s) = .ok none := by
  induction hn : occurrences r.delim s using Nat.strongRecOn generalizing s with
  | ind n ih =>
    subst hn
    rcases hcut : cut? r.delim s with _ | ⟨a, b⟩
    · -- no delimiter: no round, and nothing to wrap
      rw [wrap_of_none _ _ hcut, occurrences_of_none hcut]
      exact ⟨.done s, round_of_none hcut⟩
    · rcases hcut' : cut? r.delim b with _ | ⟨q, t⟩
      · -- one delimiter: `find` of the second fails and the loop ends
        rw [wrap_of_one _ _ r.delim_ne hcut hcut', occurrences_of_cut? r.delim_ne hcut,
          occurrences_of_none hcut']
        exact ⟨.done s, round_of_one hcut hcut'⟩
      · -- a pair: one round, which leaves the same text to be wrapped
        have hround := round_of_two hcut hcut'
        have hfewer := occurrences_round hround
        have hinert := inert_of_pair r.delim_ne hcut hcut' r.opening_ne r.closing_ne
          r.opening_disjoint r.closing_disjoint
        have hsame : wrap r.delim r.opening r.closing
            (a ++ (r.opening ++ (q ++ (r.closing ++ t)))) =
              wrap r.delim r.opening r.closing s := by
          have hsplit : a ++ (r.opening ++ (q ++ (r.closing ++ t))) =
              (a ++ (r.opening ++ (q ++ r.closing))) ++ t := by simp
          rw [hsplit, hinert.wrap_append r.delim_ne, wrap_of_two _ _ r.delim_ne hcut hcut']
          simp
        have hlt : occurrences r.delim (a ++ (r.opening ++ (q ++ (r.closing ++ t)))) <
            occurrences r.delim s := by omega
        obtain ⟨hrounds, hover⟩ := ih _ hlt _ rfl
        rw [hsame] at hrounds hover
        have hcount : occurrences r.delim s / 2 =
            occurrences r.delim (a ++ (r.opening ++ (q ++ (r.closing ++ t)))) / 2 + 1 := by
          omega
        rw [hcount]
        exact ⟨.more hround hrounds, hover⟩

/-- **What a loop computes**: every pair of delimiters of its text replaced. -/
theorem run_loop (r : InlineRule) (s : List Char) :
    r.loop.run s = .ok (wrap r.delim r.opening r.closing s) :=
  (rounds_wrap r s).1.run_eq (rounds_wrap r s).2

theorem word_delim_ne (r : InlineRule) : word r.delim ≠ [] := word_ne_nil r.delim_ne

end InlineRule

/-! ## Words -/

/-- The name of the first loop's tags. -/
def codeName : Name := ⟨"code".toList, by decide⟩

/-- The name of the second loop's tags. -/
def strongName : Name := ⟨"strong".toList, by decide⟩

/-- A text after the first loop. -/
def codeWord (s : List Char) : List Sym :=
  wrap (word codeRule.delim) [.tag (.op codeName)] [.tag (.cl codeName)] (word s)

/-- A text after both loops. -/
def inlineWord (s : List Char) : List Sym :=
  wrap (word strongRule.delim) [.tag (.op strongName)] [.tag (.cl strongName)] (codeWord s)

/-- `escape_html` spells the characters: no replacement sees what another one wrote. -/
theorem escapeHtml_eq_spell (s : List Char) : escapeHtml s = spell (word s) := by
  rw [spell_word, escapeHtml, replaceChar, replaceChar, replaceChar, List.flatMap_assoc,
    List.flatMap_assoc]
  refine List.flatMap_congr fun c _ => ?_
  rw [escape]
  split_ifs with hamp hlt hgt
  · -- an ampersand becomes an entity, and the later replacements leave it alone
    decide
  · subst hlt
    decide
  · subst hgt
    decide
  · -- any other character stays
    simp [hlt, hgt]

/-- A backtick is in no tag and no entity, so the loop may be followed on words. -/
theorem codeRule_plain : ∀ c ∈ codeRule.delim, Plain c :=
  List.all_iff_forall_prop.mp (by decide)

/-- Nor is a star. -/
theorem strongRule_plain : ∀ c ∈ strongRule.delim, Plain c :=
  List.all_iff_forall_prop.mp (by decide)

/-- The first loop on an escaped text. -/
theorem wrap_codeRule (s : List Char) :
    wrap codeRule.delim codeRule.opening codeRule.closing (escapeHtml s) = spell (codeWord s) := by
  rw [escapeHtml_eq_spell]
  exact wrap_spell codeRule.delim_ne codeRule_plain [.tag (.op codeName)] [.tag (.cl codeName)] _

/-- The second loop on what the first one wrote. -/
theorem wrap_strongRule (s : List Char) :
    wrap strongRule.delim strongRule.opening strongRule.closing (spell (codeWord s)) =
      spell (inlineWord s) :=
  wrap_spell strongRule.delim_ne strongRule_plain [.tag (.op strongName)]
    [.tag (.cl strongName)] _

/-- The tags after the first loop. -/
theorem tagsIn_codeWord (s : List Char) : TagsIn [.op codeName, .cl codeName] (codeWord s) := by
  intro t ht
  rcases mem_wrap codeRule.word_delim_ne ht with hs | hop | hcl | hd
  · exact absurd hs (tag_not_mem_word t s)
  · -- it is one of the two marks
    rw [Sym.tag.inj (List.mem_singleton.mp hop)]
    decide
  · rw [Sym.tag.inj (List.mem_singleton.mp hcl)]
    decide
  · -- the delimiter has no tags
    exact absurd hd (tag_not_mem_word t _)

/-- The tags of inline formatting. -/
def inlineTags : List Tag := [.op codeName, .cl codeName, .op strongName, .cl strongName]

/-- The tags after both loops. -/
theorem tagsIn_inlineWord (s : List Char) : TagsIn inlineTags (inlineWord s) := by
  intro t ht
  rcases mem_wrap strongRule.word_delim_ne ht with hs | hop | hcl | hd
  · -- a tag of the first loop
    exact (tagsIn_codeWord s).mono (by decide) t hs
  · rw [Sym.tag.inj (List.mem_singleton.mp hop)]
    decide
  · rw [Sym.tag.inj (List.mem_singleton.mp hcl)]
    decide
  · exact absurd hd (tag_not_mem_word t _)

/-- **`process_inline` never panics**, and what it returns is the spelling of the text's word:
    escaped characters and the tags of the two loops. -/
theorem processInline_eq_spell (s : List Char) :
    processInline s = .ok (spell (inlineWord s)) := by
  rw [processInline, InlineRule.run_loop, wrap_codeRule]
  rw [← wrap_strongRule, ← InlineRule.run_loop]
  rfl

/-! ## What the loops keep -/

/-- What the first loop reads has no tags. -/
theorem removeAll_codeRule (s : List Char) :
    removeAll codeRule.opening (removeAll codeRule.closing (spell (codeWord s))) =
      remove codeRule.delim (2 * ((escapeHtml s).count '\x60' / 2)) (escapeHtml s) := by
  have hcount : occurrences codeRule.delim (escapeHtml s) = (escapeHtml s).count '\x60' :=
    occurrences_singleton '\x60' (escapeHtml s)
  rw [← wrap_codeRule, ← hcount, escapeHtml_eq_spell]
  refine removeAll_wrap_spell codeRule.delim_ne codeRule_plain (.op codeName) (.cl codeName)
    fun x hx => ?_
  obtain ⟨c, -, rfl⟩ := List.mem_map.mp hx
  exact ⟨Sym.noConfusion, Sym.noConfusion⟩

/-- What the second loop reads has no tags but those of the first. -/
theorem removeAll_strongRule (s : List Char) :
    removeAll strongRule.opening (removeAll strongRule.closing (spell (inlineWord s))) =
      remove strongRule.delim (2 * (occurrences strongRule.delim (spell (codeWord s)) / 2))
        (spell (codeWord s)) := by
  rw [← wrap_strongRule]
  refine removeAll_wrap_spell strongRule.delim_ne strongRule_plain (.op strongName)
    (.cl strongName) fun x hx => ⟨?_, ?_⟩
  · -- the first loop writes other tags than the second
    rintro rfl
    exact absurd (tagsIn_codeWord s _ hx) (by decide)
  · rintro rfl
    exact absurd (tagsIn_codeWord s _ hx) (by decide)

/-- Both loops end, no slice panics, and each loop takes its pairs of delimiters out of the text
    and nothing else. -/
theorem processInline_loops (s : List Char) :
    ∃ result final,
      Loop.Rounds codeRule.loop ((escapeHtml s).count '\x60' / 2) (escapeHtml s) result ∧
      codeRule.round result = .ok none ∧
      Loop.Rounds strongRule.loop (occurrences strongRule.delim result / 2) result final ∧
      strongRule.round final = .ok none ∧
      processInline s = .ok final ∧
      removeAll "<code>".toList (removeAll "</code>".toList result) =
        remove "\x60".toList (2 * ((escapeHtml s).count '\x60' / 2)) (escapeHtml s) ∧
      removeAll "<strong>".toList (removeAll "</strong>".toList final) =
        remove "**".toList
          (if occurrences "**".toList result % 2 = 0 then occurrences "**".toList result
            else occurrences "**".toList result - 1) result := by
  have hcount : occurrences codeRule.delim (escapeHtml s) = (escapeHtml s).count '\x60' :=
    occurrences_singleton '\x60' (escapeHtml s)
  obtain ⟨hrounds, hover⟩ := codeRule.rounds_wrap (escapeHtml s)
  obtain ⟨hrounds', hover'⟩ := strongRule.rounds_wrap (spell (codeWord s))
  rw [wrap_codeRule, hcount] at hrounds
  rw [wrap_codeRule] at hover
  rw [wrap_strongRule] at hrounds' hover'
  have heven : ∀ m, (if m % 2 = 0 then m else m - 1) = 2 * (m / 2) := by
    intro m
    split_ifs <;> omega
  refine ⟨spell (codeWord s), spell (inlineWord s), hrounds, hover, hrounds', hover',
    processInline_eq_spell s, removeAll_codeRule s, ?_⟩
  rw [heven]
  exact removeAll_strongRule s

/-! ## Code spans -/

/-- The texts between the first and the second backtick, the third and the fourth, and so on. -/
def codeTexts (s : List Char) : List (List Char) := enclosed codeRule.delim s

/-- How many stars of a text make pairs of stars. -/
def stars (s : List Char) : Nat := occurrences strongRule.delim s

/-- A code span has no `**`, unless it is after the first `paired` of them; `i` come before the
    text. -/
def StarsOutside (paired i : Nat) (s : List Char) : Prop :=
  ∀ x q y, s = x ++ '\x60' :: (q ++ '\x60' :: y) → x.count '\x60' % 2 = 0 → '\x60' ∉ q →
    stars q = 0 ∨ paired ≤ i + stars x

/-- The leftmost backtick has none before it. -/
theorem cut?_tick {s a b : List Char} (h : cut? codeRule.delim s = some (a, b)) :
    s = a ++ '\x60' :: b ∧ '\x60' ∉ a :=
  ⟨eq_of_cut? h, cut?_singleton_eq_none.mp (cut?_before h)⟩

theorem cut?_append_tick {a : List Char} (ha : '\x60' ∉ a) (b : List Char) :
    cut? codeRule.delim (a ++ '\x60' :: b) = some (a, b) :=
  Inert.cut?_delim (Inert.of_head ha) codeRule.delim_ne b

/-- Stars on either side of a backtick are counted on their own: a backtick is no star. -/
theorem stars_append_tick (a b : List Char) : stars (a ++ '\x60' :: b) = stars a + stars b :=
  occurrences_append_cons strongRule.delim_ne (by decide) a b

/-- With less than two backticks there is no code span. -/
theorem starsOutside_of_count_lt {paired i : Nat} {s : List Char} (h : s.count '\x60' < 2) :
    StarsOutside paired i s := by
  rintro x q y rfl - -
  simp only [List.count_append, List.count_cons_self] at h
  omega

/-- Span after span. -/
theorem starsOutside_of_two {paired i : Nat} {s a b q t : List Char}
    (h : cut? codeRule.delim s = some (a, b)) (hb : cut? codeRule.delim b = some (q, t)) :
    StarsOutside paired i s ↔ (stars q = 0 ∨ paired ≤ i + stars a) ∧
      StarsOutside paired (i + stars a + stars q) t := by
  obtain ⟨rfl, ha⟩ := cut?_tick h
  obtain ⟨rfl, hq⟩ := cut?_tick hb
  constructor
  · intro hs
    -- the first span is the pair itself, any later one is in the rest
    refine ⟨hs a q t rfl (by rw [List.count_eq_zero_of_not_mem ha]) hq, ?_⟩
    rintro x q' y rfl hx hq'
    have hcount : (a ++ '\x60' :: (q ++ '\x60' :: x)).count '\x60' % 2 = 0 := by
      simp only [List.count_append, List.count_cons_self, List.count_eq_zero_of_not_mem ha,
        List.count_eq_zero_of_not_mem hq]
      omega
    have := hs (a ++ '\x60' :: (q ++ '\x60' :: x)) q' y (by simp) hcount hq'
    rwa [stars_append_tick, stars_append_tick, ← Nat.add_assoc, ← Nat.add_assoc] at this
  · rintro ⟨hfirst, hrest⟩ x q' y hs hx hq'
    rcases hcut : cut? codeRule.delim x with _ | ⟨x₁, x₂⟩
    · -- no backtick before the span: it is the first one
      have hnot : '\x60' ∉ x := cut?_singleton_eq_none.mp hcut
      have hparts := cut?_append_tick hnot (q' ++ '\x60' :: y)
      rw [← hs, cut?_append_tick ha, Option.some.injEq, Prod.mk.injEq] at hparts
      obtain ⟨rfl, hparts⟩ := hparts
      have hspan := cut?_append_tick hq' y
      rw [← hparts, cut?_append_tick hq, Option.some.injEq, Prod.mk.injEq] at hspan
      obtain ⟨rfl, -⟩ := hspan
      exact hfirst
    · obtain ⟨rfl, hx₁⟩ := cut?_tick hcut
      rcases hcut' : cut? codeRule.delim x₂ with _ | ⟨x₃, x₄⟩
      · -- one backtick before a span: then it is no span
        have hx₂ : '\x60' ∉ x₂ := cut?_singleton_eq_none.mp hcut'
        rw [List.count_append, List.count_cons_self, List.count_eq_zero_of_not_mem hx₁,
          List.count_eq_zero_of_not_mem hx₂] at hx
        omega
      · -- two or more before it: the first two are the pair, and the span is in the rest
        obtain ⟨rfl, hx₃⟩ := cut?_tick hcut'
        have hparts := congrArg (cut? codeRule.delim) hs
        rw [List.append_assoc, List.cons_append, List.append_assoc, List.cons_append,
          cut?_append_tick ha, cut?_append_tick hx₁, Option.some.injEq, Prod.mk.injEq] at hparts
        obtain ⟨rfl, hparts⟩ := hparts
        have hspan := congrArg (cut? codeRule.delim) hparts
        rw [cut?_append_tick hq, cut?_append_tick hx₃, Option.some.injEq,
          Prod.mk.injEq] at hspan
        obtain ⟨rfl, rfl⟩ := hspan
        have hcount : x₄.count '\x60' % 2 = 0 := by
          simp only [List.count_append, List.count_cons_self, List.count_eq_zero_of_not_mem hx₁,
            List.count_eq_zero_of_not_mem hx₃] at hx
          omega
        have := hrest x₄ q' y rfl hcount hq'
        rwa [stars_append_tick, stars_append_tick, ← Nat.add_assoc, ← Nat.add_assoc]

theorem codeWord_of_none {s : List Char} (h : cut? codeRule.delim s = none) :
    codeWord s = word s :=
  wrap_of_none _ _ (by rw [cut?_word codeRule.delim_ne, h, Option.map_none])

theorem codeWord_of_one {s a b : List Char} (h : cut? codeRule.delim s = some (a, b))
    (hb : cut? codeRule.delim b = none) : codeWord s = word s :=
  wrap_of_one _ _ codeRule.word_delim_ne
    (by rw [cut?_word codeRule.delim_ne, h, Option.map_some])
    (by rw [cut?_word codeRule.delim_ne, hb, Option.map_none])

/-- Of two backticks the first loop makes a pair of tags, with the rest of the text for itself. -/
theorem codeWord_of_two {s a b q t : List Char} (h : cut? codeRule.delim s = some (a, b))
    (hb : cut? codeRule.delim b = some (q, t)) :
    codeWord s = word a ++
      .tag (.op codeName) :: (word q ++ .tag (.cl codeName) :: codeWord t) :=
  wrap_of_two _ _ codeRule.word_delim_ne
    (by rw [cut?_word codeRule.delim_ne, h, Option.map_some])
    (by rw [cut?_word codeRule.delim_ne, hb, Option.map_some])

/-- The second loop finds the stars of the text: the tags of the first one are between them
    where backticks were. -/
theorem occurrences_codeWord (s : List Char) :
    occurrences (word strongRule.delim) (codeWord s) = stars s := by
  have hword : ∀ s, occurrences (word strongRule.delim) (word s) = stars s :=
    occurrences_word strongRule.delim_ne
  induction s using pair_induction codeRule.delim_ne with
  | none s h => rw [codeWord_of_none h, hword]
  | one s a b h hb => rw [codeWord_of_one h hb, hword]
  | two s a b q t h hb ih =>
    obtain ⟨rfl, -⟩ := cut?_tick h
    obtain ⟨rfl, -⟩ := cut?_tick hb
    rw [codeWord_of_two h hb,
      occurrences_append_cons strongRule.word_delim_ne (tag_not_mem_word _ _),
      occurrences_append_cons strongRule.word_delim_ne (tag_not_mem_word _ _), hword, hword, ih,
      stars_append_tick, stars_append_tick]

/-- What the second loop makes of a part of the text that `i` of the `m` stars come before. -/
def strongFrom (m i : Nat) (w : List Sym) : List Sym :=
  replaceFrom (word strongRule.delim)
    (mark (word strongRule.delim) [.tag (.op strongName)] [.tag (.cl strongName)] m) i w

/-- The second loop on the whole text: no star comes before it.  The parts between the backticks are
    then followed one by one. -/
theorem inlineWord_eq_strongFrom (s : List Char) :
    inlineWord s = strongFrom (stars s) 0 (codeWord s) := by
  rw [← occurrences_codeWord]
  rfl

/-- Part by part. -/
theorem strongFrom_of_two {m i : Nat} {s a b q t : List Char}
    (h : cut? codeRule.delim s = some (a, b)) (hb : cut? codeRule.delim b = some (q, t)) :
    strongFrom m i (codeWord s) = strongFrom m i (word a) ++ .tag (.op codeName) ::
      (strongFrom m (i + stars a) (word q) ++ .tag (.cl codeName) ::
        strongFrom m (i + stars a + stars q) (codeWord t)) := by
  rw [codeWord_of_two h hb, strongFrom,
    replaceFrom_append_cons strongRule.word_delim_ne (tag_not_mem_word _ _),
    replaceFrom_append_cons strongRule.word_delim_ne (tag_not_mem_word _ _),
    occurrences_word strongRule.delim_ne, occurrences_word strongRule.delim_ne]
  rfl

/-- Without code spans the second loop brings its own two tags. -/
theorem tagsIn_strongFrom (m i : Nat) (s : List Char) :
    TagsIn [.op strongName, .cl strongName] (strongFrom m i (word s)) := by
  intro t ht
  rcases mem_replaceFrom strongRule.word_delim_ne ht with hs | ⟨j, hj⟩
  · exact absurd hs (tag_not_mem_word t s)
  · rw [mark] at hj
    split_ifs at hj
    · rw [Sym.tag.inj (List.mem_singleton.mp hj)]
      decide
    · rw [Sym.tag.inj (List.mem_singleton.mp hj)]
      decide
    · exact absurd hj (tag_not_mem_word t _)

/-- A text comes out of the second loop as it went in if no star of it has a partner; and only
    then, since a mark spells otherwise than the stars it stands for. -/
theorem spell_strongFrom_eq_iff {m i : Nat} {s : List Char} :
    spell (strongFrom m i (word s)) = escapeHtml s ↔ stars s = 0 ∨ 2 * (m / 2) ≤ i := by
  rw [escapeHtml_eq_spell]
  constructor
  · intro h
    by_contra hnot
    rw [not_or, Nat.not_le] at hnot
    obtain ⟨hsome, hpaired⟩ := hnot
    rcases hcut : cut? (word strongRule.delim) (word s) with _ | ⟨a, b⟩
    · rw [stars, ← occurrences_word strongRule.delim_ne, occurrences_of_none hcut] at hsome
      exact hsome rfl
    · -- its first star gives a tag
      refine lt_not_mem_spell_word s ?_
      rw [← h, strongFrom, replaceFrom_of_cut? strongRule.word_delim_ne _ i hcut, mark,
        if_pos hpaired]
      split_ifs
      · exact lt_mem_spell (List.mem_append_right a List.mem_cons_self)
      · exact lt_mem_spell (List.mem_append_right a List.mem_cons_self)
  · -- no star, or none that has a partner: nothing is replaced
    rintro (hnone | hpaired)
    · have hcut : cut? (word strongRule.delim) (word s) = none :=
        cut?_eq_none_of_occurrences strongRule.word_delim_ne
          ((occurrences_word strongRule.delim_ne s).trans hnone)
      rw [strongFrom, replaceFrom_of_none _ i hcut]
    · rw [strongFrom, replaceFrom_self strongRule.word_delim_ne fun k _ => ?_]
      exact if_neg (by omega)

/-- The code spans of the page are the texts between the backticks, if and only if no star in
    one has a partner. -/
theorem spans_strongFrom_iff {m : Nat} (s : List Char) (i : Nat) :
    (spans [.tag (.op codeName)] [.tag (.cl codeName)] (strongFrom m i (codeWord s))).map spell =
      (codeTexts s).map escapeHtml ↔ StarsOutside (2 * (m / 2)) i s := by
  have hne : ∀ t, [Sym.tag t] ≠ [] := fun t => List.cons_ne_nil _ _
  have hop : ∀ i s, Sym.tag (.op codeName) ∉ strongFrom m i (word s) :=
    fun i s h => absurd (tagsIn_strongFrom m i s _ h) (by decide)
  have hcl : ∀ i s, Sym.tag (.cl codeName) ∉ strongFrom m i (word s) :=
    fun i s h => absurd (tagsIn_strongFrom m i s _ h) (by decide)
  have hnospan : ∀ i s, spans [Sym.tag (.op codeName)] [.tag (.cl codeName)]
      (strongFrom m i (word s)) = [] :=
    fun i s => spans_of_none (cut?_singleton_eq_none.mpr (hop i s))
  induction s using pair_induction codeRule.delim_ne generalizing i with
  | none s h =>
    rw [codeWord_of_none h, hnospan, codeTexts, enclosed_of_none h]
    have hcount : s.count '\x60' = 0 :=
      List.count_eq_zero_of_not_mem (cut?_singleton_eq_none.mp h)
    simpa using starsOutside_of_count_lt (by omega)
  | one s a b h hb =>
    rw [codeWord_of_one h hb, hnospan, codeTexts, enclosed_of_one codeRule.delim_ne h hb]
    have hcount : s.count '\x60' = 1 := by
      obtain ⟨rfl, ha⟩ := cut?_tick h
      rw [List.count_append, List.count_cons_self, List.count_eq_zero_of_not_mem ha,
        List.count_eq_zero_of_not_mem (cut?_singleton_eq_none.mp hb)]
    simpa using starsOutside_of_count_lt (by omega)
  | two s a b q t h hb ih =>
    -- a pair: its span is on the page as the second loop leaves it
    have hspan : Inert [Sym.tag (.op codeName)]
        (strongFrom m (i + stars a) (word q) ++ [.tag (.cl codeName)]) :=
      (Inert.of_head (hop _ _)).append (Inert.of_head (by decide))
    have hspans : spans [Sym.tag (.op codeName)] [.tag (.cl codeName)]
        (strongFrom m i (codeWord s)) = strongFrom m (i + stars a) (word q) ::
          spans [Sym.tag (.op codeName)] [.tag (.cl codeName)]
            (strongFrom m (i + stars a + stars q) (codeWord t)) := by
      rw [strongFrom_of_two h hb, Inert.spans_append (hne _) (Inert.of_head (hop _ _))]
      exact spans_of_span (hne _) (hne _) hspan (Inert.of_head (hcl _ _)) _
    rw [hspans, codeTexts, enclosed_of_two codeRule.delim_ne h hb, List.map_cons, List.map_cons,
      List.cons_eq_cons, spell_strongFrom_eq_iff, starsOutside_of_two h hb]
    exact and_congr_right fun _ => ih _

/-- What is open after `i` of `m` stars. -/
def strongStack (m i : Nat) : List (List Char) :=
  if i < 2 * (m / 2) ∧ i % 2 = 1 then [strongName.letters] else []

/-- Star by star. -/
theorem nestAll_mark (m i : Nat) :
    nestAll (strongStack m i) (labels (mark (word strongRule.delim) [.tag (.op strongName)]
      [.tag (.cl strongName)] m i)) = some (strongStack m (i + 1)) := by
  by_cases hpaired : i < 2 * (m / 2)
  · rw [mark, if_pos hpaired]
    rcases Nat.mod_two_eq_zero_or_one i with heven | hodd
    · -- an opening mark: nothing is open before it
      have hbefore : strongStack m i = [] := if_neg (by omega)
      have hafter : strongStack m (i + 1) = [strongName.letters] := if_pos (by omega)
      rw [if_pos heven, hbefore, hafter, labels_tag, nestAll_op]
      rfl
    · -- a closing mark: the one before it is open
      have hbefore : strongStack m i = [strongName.letters] := if_pos ⟨hpaired, hodd⟩
      have hafter : strongStack m (i + 1) = [] := if_neg (by omega)
      rw [if_neg (by omega), hbefore, hafter, labels_tag, nestAll_cl]
      rfl
  · -- a star without a partner stays text
    have hbefore : strongStack m i = [] := if_neg (by omega)
    have hafter : strongStack m (i + 1) = [] := if_neg (by omega)
    rw [mark, if_neg hpaired, hbefore, hafter, labels_word, nestAll_nil]

/-- A part without tags takes the stack from the stars before it to those behind it. -/
theorem nestAll_strongFrom_of_untagged {m : Nat} {w : List Sym} (i : Nat)
    (hw : ∀ t, Sym.tag t ∉ w) :
    nestAll (strongStack m i) (labels (strongFrom m i w)) =
      some (strongStack m (i + occurrences (word strongRule.delim) w)) := by
  induction w using cut_induction strongRule.word_delim_ne generalizing i with
  | none w h =>
    rw [strongFrom, replaceFrom_of_none _ i h, labels_eq_nil hw, occurrences_of_none h,
      nestAll_nil, Nat.add_zero]
  | some w a b h ih =>
    rw [eq_of_cut? h] at hw
    have ha : labels a = [] := labels_eq_nil fun t ht => hw t (List.mem_append_left _ ht)
    have hb : ∀ t, Sym.tag t ∉ b := fun t ht =>
      hw t (List.mem_append_right _ (List.mem_append_right _ ht))
    rw [strongFrom, replaceFrom_of_cut? strongRule.word_delim_ne _ i h, labels_append,
      labels_append, ha, List.nil_append, nestAll_append, nestAll_mark, Option.bind_some,
      occurrences_of_cut? strongRule.word_delim_ne h, ← Nat.add_assoc, Nat.add_right_comm]
    exact ih (i + 1) hb

/-- Pairs of stars outside the code spans, and the spans between or within them. -/
theorem nestAll_strongFrom {m : Nat} (s : List Char) (i : Nat)
    (h : StarsOutside (2 * (m / 2)) i s) :
    nestAll (strongStack m i) (labels (strongFrom m i (codeWord s))) =
      some (strongStack m (i + stars s)) := by
  have hword : ∀ i s, nestAll (strongStack m i) (labels (strongFrom m i (word s))) =
      some (strongStack m (i + stars s)) := by
    intro i s
    rw [nestAll_strongFrom_of_untagged i fun t => tag_not_mem_word t s,
      occurrences_word strongRule.delim_ne]
    rfl
  induction s using pair_induction codeRule.delim_ne generalizing i with
  | none s hs => rw [codeWord_of_none hs, hword]
  | one s a b hs hb => rw [codeWord_of_one hs hb, hword]
  | two s a b q t hs hb ih =>
    obtain ⟨hspan, hrest⟩ := (starsOutside_of_two hs hb).mp h
    have hstars : stars s = stars a + stars q + stars t := by
      obtain ⟨rfl, -⟩ := cut?_tick hs
      obtain ⟨rfl, -⟩ := cut?_tick hb
      rw [stars_append_tick, stars_append_tick, Nat.add_assoc]
    have hverbatim : labels (strongFrom m (i + stars a) (word q)) = [] := by
      have hspell := spell_strongFrom_eq_iff.mpr hspan
      rw [← tags_spell, hspell, escapeHtml_eq_spell, tags_spell, labels_word]
    have hstack : strongStack m (i + stars a) = strongStack m (i + stars a + stars q) := by
      rcases hspan with hnone | hpaired
      · rw [hnone, Nat.add_zero]
      · rw [strongStack, strongStack, if_neg (by omega), if_neg (by omega)]
    rw [strongFrom_of_two hs hb, labels_append, labels_tag, labels_append, labels_tag, hverbatim,
      nestAll_append, hword, Option.bind_some, nestAll_op, List.nil_append, nestAll_cl, hstack,
      ih _ hrest, hstars]
    simp only [Nat.add_assoc]

/-- The tags are well nested and the code spans verbatim, if and only if every `**` in a code
    span is one without a partner. -/
theorem processInline_code_iff (s : List Char) :
    ∃ out, processInline s = .ok out ∧
      (WellNested (tags out) ∧
          spans "<code>".toList "</code>".toList out = (codeTexts s).map escapeHtml ↔
        ∀ x q y, s = x ++ '\x60' :: (q ++ '\x60' :: y) → x.count '\x60' % 2 = 0 → '\x60' ∉ q →
          occurrences "**".toList q = 0 ∨
            2 * (occurrences "**".toList s / 2) ≤ occurrences "**".toList x) := by
  refine ⟨spell (inlineWord s), processInline_eq_spell s, ?_⟩
  -- the spans are read off the page as the word has them
  have hspans : spans "<code>".toList "</code>".toList (spell (inlineWord s)) =
      (spans [.tag (.op codeName)] [.tag (.cl codeName)] (inlineWord s)).map spell :=
    spans_spell (.op codeName) (.cl codeName) (inlineWord s)
  have houtside : StarsOutside (2 * (stars s / 2)) 0 s ↔
      ∀ x q y, s = x ++ '\x60' :: (q ++ '\x60' :: y) → x.count '\x60' % 2 = 0 → '\x60' ∉ q →
        occurrences "**".toList q = 0 ∨
          2 * (occurrences "**".toList s / 2) ≤ occurrences "**".toList x := by
    simp only [StarsOutside, Nat.zero_add]
    rfl
  rw [hspans, tags_spell, inlineWord_eq_strongFrom, spans_strongFrom_iff, houtside]
  -- verbatim spans are enough for the nesting
  refine and_iff_right_of_imp fun hstars => ?_
  have hnest := nestAll_strongFrom s 0 (houtside.mpr hstars)
  have hopen : strongStack (stars s) 0 = [] := if_neg (by omega)
  have hclosed : strongStack (stars s) (0 + stars s) = [] := if_neg (by omega)
  rw [hopen, hclosed] at hnest
  exact hnest

/-- Two stars on either side of a backtick are a pair to the second loop, and so are those
    within a span. -/
theorem processInline_code_crossed :
    (∃ out, processInline "\x60a**b\x60**".toList = .ok out ∧ ¬ WellNested (tags out)) ∧
      ∃ out, processInline "\x602**3**4\x60".toList = .ok out ∧
        spans "<code>".toList "</code>".toList out ≠
          (codeTexts "\x602**3**4\x60".toList).map escapeHtml := by
  refine ⟨⟨_, processInline_eq_spell _, ?_⟩, _, processInline_eq_spell _, ?_⟩
  · decide
  · decide

end PpService
