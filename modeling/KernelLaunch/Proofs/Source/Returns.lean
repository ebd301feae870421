import KernelLaunch.Proofs.Source.DirectiveLines
import KernelLaunch.Proofs.Source.Removal
import KernelLaunch.Proofs.Text.Words
import KernelLaunch.Source.Interface

/-!
Carriage returns in sources. Text mode translates a carriage return, with or without a
newline behind it, to one newline, while inline text is parsed with its carriage returns,
which end no line. Two texts end alike if the scanner and the directive state continue
equally behind them; a carriage return may be read as a newline if the text up to the end of
its line ends alike in both readings.
-/

namespace KernelLaunch.Source

open Text

section Passing

/-- What is left of a character that opens, closes and escapes nothing: in a comment nothing but
a newline. -/
def Place.remains (p : Place) (c : Char) : List Char :=
  if (p.region = .lineComment ∨ p.region = .blockComment) ∧ c ≠ '\n' then [] else [c]

/-- A character that neither opens nor closes a comment, nor escapes the next one. -/
structure Passes (c : Char) : Prop where
  notSlash : c ≠ '/'
  notStar : c ≠ '*'
  notEscape : c ≠ '\\'

theorem passes_newline : Passes '\n' := ⟨by decide, by decide, by decide⟩

theorem passes_return : Passes '\r' := ⟨by decide, by decide, by decide⟩

variable {c : Char}

theorem Passes.held_next (hc : Passes c) (p : Place) : (p.next c).held = [] := by
  obtain ⟨hslash, hstar, hescape⟩ := hc
  have hcode : (Place.ofCode c).held = [] := by
    rw [Place.ofCode, if_neg hslash]
    split <;> rfl
  cases p with
  | code => exact hcode
  | slash =>
      rw [Place.next, if_neg hslash, if_neg hstar]
      exact hcode
  | lineComment =>
      rw [Place.next]
      split <;> rfl
  | blockComment =>
      rw [Place.next, if_neg hstar]
      rfl
  | star =>
      rw [Place.next, if_neg hslash, if_neg hstar]
      rfl
  | literal quote =>
      rw [Place.next, if_neg hescape]
      split <;> rfl
  | escape quote => rfl

theorem Passes.written (hc : Passes c) (p : Place) :
    p.written c = stripFrom p.region p.held ++ p.remains c := by
  obtain ⟨hslash, hstar, hescape⟩ := hc
  cases p <;> by_cases hnewline : c = '\n' <;>
    simp [Place.written, Place.remains, Place.region, Place.held, stripFrom, hslash, hstar, hescape,
      hnewline]

/-- What stands before such a character is freed of comments on its own. -/
theorem Passes.stripComments (hc : Passes c) (x rest : List Char) :
    stripComments (x ++ c :: rest) = stripComments x ++
      ((scan .code x).remains c ++ stripFrom ((scan .code x).next c).region rest) := by
  have hgoes : Source.stripComments (x ++ c :: rest) = output .code x ++
      stripFrom (scan .code x).region ((scan .code x).held ++ c :: rest) :=
    strip_scan .code x (c :: rest)
  rw [hgoes, strip_next, hc.held_next, hc.written, stripComments_eq]
  simp only [List.append_assoc, List.nil_append]

/-- A line is freed of comments whatever follows, and its newline stays. -/
theorem stripComments_line (t rest : List Char) :
    stripComments (t ++ '\n' :: rest) =
      stripComments t ++ '\n' :: stripFrom ((scan .code t).next '\n').region rest := by
  have hremains : (scan .code t).remains '\n' = ['\n'] := by simp [Place.remains]
  rw [passes_newline.stripComments, hremains, List.singleton_append]

end Passing

section Alike

theorem words_unlines (ls : List (List Char)) : words (unlines ls) = ls.flatMap words := by
  induction ls with
  | nil => rfl
  | cons l ls ih =>
      by_cases hne : ls = []
      · subst hne
        exact (List.append_nil _).symm
      · rw [unlines_cons hne, words, splitWords_append [] l (by decide), List.flatMap_cons, ← ih]
        rfl

/-- The words of those among some lines that are outside directives. -/
def wordsOutside (inside : Bool) (ls : List (List Char)) : List (List Char) :=
  (keptLines inside ls).flatMap words

theorem wordsOutside_append (inside : Bool) (ls more : List (List Char)) :
    wordsOutside inside (ls ++ more) =
      wordsOutside inside ls ++ wordsOutside (insideAfter inside ls) more := by
  rw [wordsOutside, keptLines_append, List.flatMap_append]
  rfl

theorem wordsOutside_cons (inside : Bool) (line : List Char) (rest : List (List Char)) :
    wordsOutside inside (line :: rest) =
      if inside || opensDirective line then wordsOutside (isContinued line) rest
      else words line ++ wordsOutside false rest := by
  unfold wordsOutside
  rw [keptLines]
  split
  · rfl
  · rw [List.flatMap_cons]

theorem words_code (t : List Char) :
    words (code t) = wordsOutside false (lines (stripComments t)) := words_unlines _

theorem words_code_line (t rest : List Char) :
    words (code (t ++ '\n' :: rest)) = words (code t) ++
      wordsOutside (insideAfter false (lines (stripComments t)))
        (lines (stripFrom ((scan .code t).next '\n').region rest)) := by
  rw [words_code, words_code, stripComments_line, lines_append, wordsOutside_append]

/-- Two texts leave the same words, and what follows in the next line is read alike behind
them. -/
structure EndsAlike (t t' : List Char) : Prop where
  words : words (code t) = words (code t')
  /-- The next line begins in code behind both, or within the same comment or literal. -/
  place : (scan .code t).next '\n' = (scan .code t').next '\n'
  /-- A directive goes on behind both or behind none of them. -/
  inside : insideAfter false (lines (stripComments t)) =
    insideAfter false (lines (stripComments t'))

instance (t t' : List Char) : Decidable (EndsAlike t t') :=
  decidable_of_iff (Text.words (code t) = Text.words (code t') ∧
      (scan .code t).next '\n' = (scan .code t').next '\n' ∧
      insideAfter false (lines (stripComments t)) = insideAfter false (lines (stripComments t')))
    ⟨fun h => ⟨h.1, h.2.1, h.2.2⟩, fun h => ⟨h.words, h.place, h.inside⟩⟩

theorem EndsAlike.goes_on {t t' : List Char} (h : EndsAlike t t') (rest : List Char) :
    Text.words (code (t ++ '\n' :: rest)) = Text.words (code (t' ++ '\n' :: rest)) := by
  rw [words_code_line, words_code_line, h.words, h.place, h.inside]

/-- A literal has one of two quotes. -/
def Place.Proper : Place → Prop
  | .literal quote | .escape quote => quote = '"' ∨ quote = '\''
  | _ => True

theorem proper_ofCode (c : Char) : (Place.ofCode c).Proper := by
  unfold Place.ofCode
  split
  · trivial
  · split
    · assumption
    · trivial

theorem Place.Proper.next {p : Place} (h : p.Proper) (c : Char) : (p.next c).Proper := by
  cases p with
  | code => exact proper_ofCode c
  | slash =>
      rw [Place.next]
      split
      · trivial
      · split
        · trivial
        · exact proper_ofCode c
  | lineComment | blockComment =>
      rw [Place.next]
      split <;> trivial
  | star =>
      rw [Place.next]
      split
      · trivial
      · split <;> trivial
  | literal quote =>
      rw [Place.next]
      split
      · exact h
      · split
        · trivial
        · exact h
  | escape quote => exact h

theorem proper_scan (x : List Char) : (scan .code x).Proper := by
  induction x using List.reverseRecOn with
  | nil => trivial
  | append_singleton x c ih =>
      rw [scan_append]
      exact ih.next c

/-- The places at which a line can begin. -/
def lineStarts : List Place := [.code, .blockComment, .literal '"', .literal '\'']

theorem lineStarts_complete (x : List Char) : (scan .code x).next '\n' ∈ lineStarts := by
  have hproper := proper_scan x
  cases hplace : scan .code x with
  | literal quote => simp [lineStarts, Place.next]
  | escape quote =>
      rw [hplace] at hproper
      have hquote : quote = '"' ∨ quote = '\'' := hproper
      simpa [lineStarts, Place.next] using hquote
  | _ => simp [lineStarts, Place.next, Place.ofCode]

/-- Texts that are treated differently at different places, and within a directive. -/
def probes : List (List Char) :=
  ["\nx".toList, "/*\nx".toList, "\"/*\nx".toList, "*/x".toList]

theorem probes_tell : ∀ p ∈ lineStarts, ∀ p' ∈ lineStarts, ∀ inside inside' : Bool,
    (∀ probe ∈ probes, wordsOutside inside (lines (stripFrom p.region probe)) =
      wordsOutside inside' (lines (stripFrom p'.region probe))) →
    p = p' ∧ inside = inside' := by
  decide

/-- Texts end alike just if the same words are left of them with whatever lines behind them. -/
theorem endsAlike_iff (t t' : List Char) :
    EndsAlike t t' ↔ ∀ rest,
      words (code (t ++ '\n' :: rest)) = words (code (t' ++ '\n' :: rest)) := by
  refine ⟨EndsAlike.goes_on, fun h => ?_⟩
  have hnothing (inside : Bool) (r : Region) :
      wordsOutside inside (lines (stripFrom r [])) = [] := by
    cases inside <;> cases r <;> rfl
  have hwords : words (code t) = words (code t') := by
    have hempty := h []
    rwa [words_code_line, words_code_line, hnothing, hnothing, List.append_nil, List.append_nil]
      at hempty
  obtain ⟨hplace, hinside⟩ := probes_tell _ (lineStarts_complete t) _ (lineStarts_complete t') _ _
    fun probe _ => by
      have hprobe := h probe
      rw [words_code_line, words_code_line, hwords] at hprobe
      exact List.append_cancel_left hprobe
  exact ⟨hwords, hplace, hinside⟩

end Alike

section Harmless

/-- A character that ends no line, in a file or elsewhere. -/
def isInLine (c : Char) : Bool := c != '\r' && c != '\n'

/-- The rest of the line that a text begins with. -/
def restOfLine (cs : List Char) : List Char := cs.takeWhile isInLine

/-- A carriage return between `before` and `rest` may be read as a newline, or be dropped in
front of one. -/
def Harmless (before rest : List Char) : Prop :=
  if rest.head? = some '\n' then EndsAlike (before ++ ['\r']) before
  else EndsAlike (before ++ '\r' :: restOfLine rest) (before ++ '\n' :: restOfLine rest)

/-- Every carriage return of a text may be read as a newline. -/
def HarmlessReturns (cs : List Char) : Prop :=
  ∀ before rest, cs = before ++ '\r' :: rest → Harmless before rest

instance (before rest : List Char) : Decidable (Harmless before rest) :=
  inferInstanceAs (Decidable (ite ..))

instance (cs : List Char) : Decidable (HarmlessReturns cs) :=
  decidable_of_iff
    (∀ i < cs.length, cs[i]? = some '\r' → Harmless (cs.take i) (cs.drop (i + 1))) <| by
    constructor
    · rintro h before rest rfl
      have hplace := h before.length (by simp) (by simp)
      simpa using hplace
    · intro h i hi hreturn
      refine h _ _ ?_
      have hdrop := List.drop_eq_getElem_cons hi
      rw [List.getElem?_eq_getElem hi, Option.some_inj] at hreturn
      rw [← hreturn, ← hdrop, List.take_append_drop]

/-- Text mode translates carriage returns line by line. -/
theorem normalizeNewlines_line (cs : List Char) :
    normalizeNewlines cs = restOfLine cs ∨
      ∃ rest, normalizeNewlines cs = restOfLine cs ++ '\n' :: rest := by
  induction cs using normalizeNewlines.induct with
  | case1 => exact .inl rfl
  | case2 rest _ => exact .inr ⟨normalizeNewlines rest, rfl⟩
  | case3 rest halone _ =>
      refine .inr ⟨normalizeNewlines rest, ?_⟩
      rw [normalizeNewlines]
      · rfl
      · exact halone
  | case4 c rest hpair hreturn ih =>
      have hread : normalizeNewlines (c :: rest) = c :: normalizeNewlines rest := by
        rw [normalizeNewlines]
        · exact hpair
        · exact hreturn
      by_cases hnewline : c = '\n'
      · subst hnewline
        exact .inr ⟨normalizeNewlines rest, hread⟩
      · have hline : restOfLine (c :: rest) = c :: restOfLine rest :=
          List.takeWhile_cons_of_pos (by simpa [isInLine] using ⟨hreturn, hnewline⟩)
        rw [hread, hline]
        rcases ih with hlast | ⟨more, hmore⟩
        · exact .inl (congrArg (c :: ·) hlast)
        · exact .inr ⟨more, congrArg (c :: ·) hmore⟩

/-- The words of a text with its returns are those of its file, where both stand behind
`before`. -/
theorem words_code_read (before cs : List Char)
    (h : ∀ x rest, cs = x ++ '\r' :: rest → Harmless (before ++ x) rest) :
    words (code (before ++ cs)) = words (code (before ++ normalizeNewlines cs)) := by
  -- What is behind a return has been read when it is its turn, so `before` keeps its returns.
  induction cs using normalizeNewlines.induct generalizing before with
  | case1 => rfl
  | case2 rest ih =>
      have hfirst : EndsAlike (before ++ ['\r']) before := by
        have hpair := h [] ('\n' :: rest) rfl
        rwa [List.append_nil, Harmless, List.head?_cons, if_pos rfl] at hpair
      have hrest := ih (before ++ ['\r', '\n']) fun x more heq => by
        have hlater := h ('\r' :: '\n' :: x) more (by rw [heq]; rfl)
        rwa [List.append_assoc]
      have hgoes := hfirst.goes_on (normalizeNewlines rest)
      simp only [List.append_assoc, List.cons_append, List.nil_append] at hrest hgoes
      exact hrest.trans hgoes
  | case3 rest halone ih =>
      have hnext : rest.head? ≠ some '\n' := fun hhead => by
        obtain ⟨more, hmore⟩ := List.head?_eq_some_iff.mp hhead
        exact halone more hmore
      have hfirst : EndsAlike (before ++ '\r' :: restOfLine rest)
          (before ++ '\n' :: restOfLine rest) := by
        have hreturn := h [] rest rfl
        rwa [List.append_nil, Harmless, if_neg hnext] at hreturn
      have hrest := ih (before ++ ['\r']) fun x more heq => by
        have hlater := h ('\r' :: x) more (by rw [heq]; rfl)
        rwa [List.append_assoc]
      have hread : normalizeNewlines ('\r' :: rest) = '\n' :: normalizeNewlines rest := by
        rw [normalizeNewlines]
        exact halone
      rw [List.append_assoc, List.append_assoc, List.singleton_append, List.singleton_append]
        at hrest
      rw [hrest, hread]
      rcases normalizeNewlines_line rest with hlast | ⟨more, hmore⟩
      · rw [hlast]
        exact hfirst.words
      · have hgoes := hfirst.goes_on more
        simp only [List.append_assoc, List.cons_append] at hgoes
        rw [hmore]
        exact hgoes
  | case4 c rest hpair hreturn ih =>
      have hread : normalizeNewlines (c :: rest) = c :: normalizeNewlines rest := by
        rw [normalizeNewlines]
        · exact hpair
        · exact hreturn
      have hrest := ih (before ++ [c]) fun x more heq => by
        have hlater := h (c :: x) more (by rw [heq]; rfl)
        rwa [List.append_assoc]
      rw [List.append_assoc, List.append_assoc, List.singleton_append, List.singleton_append]
        at hrest
      rw [hread]
      exact hrest

end Harmless

section Kinds

theorem opensDirective_blank {g : List Char} (hg : ∀ c ∈ g, isBlank c = true) :
    opensDirective g = false := by
  have hnone : trimLeft g = [] := List.dropWhile_eq_nil_iff.mpr hg
  rw [opensDirective, hnone]
  rfl

/-- What goes on a line that is blank so far starts a directive on its own. -/
theorem opensDirective_join (a b : List Char) :
    opensDirective (a ++ b) = (opensDirective a || (a.all isBlank && opensDirective b)) := by
  induction a with
  | nil => rfl
  | cons c a ih =>
      by_cases hc : isBlank c = true
      · have hskip (z : List Char) : opensDirective (c :: z) = opensDirective z := by
          rw [opensDirective, trimLeft, List.dropWhile_cons_of_pos hc]
          rfl
        rw [List.cons_append, hskip, hskip, ih, List.all_cons, hc, Bool.true_and]
      · have hstays (z : List Char) : opensDirective (c :: z) = (some c == some '#') := by
          rw [opensDirective, trimLeft, List.dropWhile_cons_of_neg hc]
          rfl
        rw [List.cons_append, hstays, hstays, List.all_cons, Bool.not_eq_true _ |>.mp hc,
          Bool.false_and, Bool.false_and, Bool.or_false]

theorem isContinued_blanks (line : List Char) {g : List Char}
    (hg : ∀ c ∈ g, isBlank c = true) : isContinued (line ++ g) = isContinued line := by
  have hreverse : ∀ c ∈ g.reverse, isBlank c = true := fun c hc => hg c (List.mem_reverse.mp hc)
  unfold isContinued trimRight
  rw [List.reverse_append, List.dropWhile_append_of_pos hreverse]

theorem exists_lines_snoc (x : List Char) : ∃ before last, lines x = before ++ [last] := by
  obtain hnil | ⟨before, last, hbefore⟩ := List.eq_nil_or_concat (lines x)
  · exact absurd hnil (splitAt_ne_nil _ x)
  · exact ⟨before, last, by rw [hbefore, List.concat_eq_append]⟩

/-- What is left of a return is blank and ends no line. -/
theorem remains_return (p : Place) : p.remains '\r' = [] ∨ p.remains '\r' = ['\r'] := by
  unfold Place.remains
  split
  · exact .inl rfl
  · exact .inr rfl

theorem blank_remains_return (p : Place) : ∀ c ∈ p.remains '\r', isBlank c = true ∧ c ≠ '\n' := by
  rcases remains_return p with hnone | hone
  · rw [hnone]
    exact List.forall_mem_nil _
  · rw [hone]
    exact List.forall_mem_singleton.mpr ⟨by decide, by decide⟩

/-- A return in front of a newline may be left out, unless a backslash in a literal takes it for
itself. -/
theorem endsAlike_return_iff (x : List Char) :
    EndsAlike (x ++ ['\r']) x ↔ ∀ quote, scan .code x ≠ .escape quote := by
  constructor
  · intro h quote hescape
    have hplace := h.place
    rw [scan_append, hescape] at hplace
    simp [scan, Place.next] at hplace
  · intro hplain
    obtain ⟨before, last, hlines⟩ := exists_lines_snoc (stripComments x)
    obtain ⟨hblank, hline⟩ := forall₂_and.mp (blank_remains_return (scan .code x))
    generalize hg : (scan .code x).remains '\r' = g at hblank hline
    have hstrip : stripComments (x ++ ['\r']) = stripComments x ++ g := by
      rw [passes_return.stripComments, hg, stripFrom, List.append_nil]
    have hmore : lines (stripComments (x ++ ['\r'])) = before ++ [last ++ g] := by
      rw [hstrip]
      exact splitAt_glue hlines (splitAt_of_not_mem fun hmem => hline _ hmem rfl)
    have hopens : opensDirective (last ++ g) = opensDirective last := by
      rw [opensDirective_join, opensDirective_blank hblank, Bool.and_false, Bool.or_false]
    have hwords : words (last ++ g) = words last := words_padded (g := []) (by simp) hblank last
    constructor
    case words =>
      rw [words_code, words_code, hmore, hlines, wordsOutside_append, wordsOutside_append,
        wordsOutside_cons, wordsOutside_cons, hopens, hwords]
      rfl
    case place =>
      rw [scan_append]
      cases hplace : scan .code x with
      | escape quote => exact absurd hplace (hplain quote)
      | literal quote =>
        by_cases hquote : '\r' = quote
        · subst hquote
          rfl
        · simp [scan, Place.next, hquote]
      | _ => rfl
    case inside =>
      rw [hmore, hlines, insideAfter_append, insideAfter_append, insideAfter, insideAfter, hopens,
        isContinued_blanks last hblank]
      rfl

theorem region_ofCode_ne (c : Char) : (Place.ofCode c).region ≠ .blockComment := by
  unfold Place.ofCode
  split
  · exact nofun
  · split <;> exact nofun

/-- A block comment leaves a space, and its newlines. -/
theorem written_blockComment {p : Place} {c : Char} (h : (p.next c).region = .blockComment) :
    (∃ d, p.written c = [d] ∧ isBlank d = true) ∨
      p.written c = [] ∧ p.region = .blockComment := by
  have hinside : (∃ d, (if c = '\n' then ['\n'] else []) = [d] ∧ isBlank d = true) ∨
      (if c = '\n' then ['\n'] else []) = [] := by
    split
    · exact .inl ⟨'\n', rfl, by decide⟩
    · exact .inr rfl
  cases p with
  | code => exact absurd h (region_ofCode_ne c)
  | slash =>
      by_cases hline : c = '/'
      · subst hline
        cases h
      · by_cases hblock : c = '*'
        · subst hblock
          exact .inl ⟨' ', rfl, isBlank_space⟩
        · rw [Place.next, if_neg hline, if_neg hblock] at h
          exact absurd h (region_ofCode_ne c)
  | lineComment =>
      rw [Place.next] at h
      split at h <;> cases h
  | blockComment | star => exact hinside.imp_right fun hnone => ⟨hnone, rfl⟩
  | literal quote =>
      rw [Place.next] at h
      split at h
      · cases h
      · split at h <;> cases h
  | escape quote => cases h

theorem output_blockComment (x : List Char) (h : (scan .code x).region = .blockComment) :
    ∃ before c, output .code x = before ++ [c] ∧ isBlank c = true := by
  induction x using List.reverseRecOn with
  | nil => cases h
  | append_singleton x d ih =>
      rw [scan_append] at h
      rw [output_append, output, output, List.append_nil]
      rcases written_blockComment h with ⟨c, hwritten, hc⟩ | ⟨hnone, hregion⟩
      · exact ⟨output .code x, c, by rw [hwritten], hc⟩
      · rw [hnone, List.append_nil]
        exact ih hregion

/-- In front of what a return leaves, or of what follows if that is nothing, no word goes on from
the line before. -/
theorem parted_return {x last : List Char} {before : List (List Char)}
    (hlines : lines (stripComments x) = before ++ [last])
    (hplace : (scan .code x).next '\r' = (scan .code x).next '\n') (rest : List Char) :
    Parted isNotBlank last ((scan .code x).remains '\r' ++ rest) := by
  by_cases hblock : (scan .code x).region = .blockComment
  · obtain ⟨text, c, houtput, hc⟩ := output_blockComment x hblock
    have hheld : stripFrom (scan .code x).region (scan .code x).held = [] := by
      cases hend : scan .code x <;> rw [hend] at hblock <;> first | rfl | cases hblock
    have htext : unlines (before ++ [last]) = text ++ [c] := by
      rw [← hlines, unlines_lines, stripComments_eq, houtput, hheld, List.append_nil]
    apply Parted.of_last
    intro d hd
    obtain ⟨line, hline⟩ := List.getLast?_eq_some_iff.mp hd
    rw [hline, unlines, joinWith_glue, joinWith] at htext
    have hsame := (List.append_inj' htext rfl).2
    cases hsame
    simp [isNotBlank, hc]
  · have hnot : (scan .code x).region ≠ .lineComment := by
      intro hcomment
      cases hend : scan .code x with
      | lineComment =>
          rw [hend] at hplace
          exact absurd hplace (by decide)
      | _ =>
          rw [hend] at hcomment
          cases hcomment
    have hleft : (scan .code x).remains '\r' = ['\r'] := by
      simp [Place.remains, hblock, hnot]
    rw [hleft]
    apply Parted.of_head
    rintro _ ⟨⟩
    decide

/-- Whether it is a return or a newline that a text goes on with, outside of literals and line
comments, in a line that is in no directive, and before a line that starts none. -/
theorem endsAlike_alone {x rest : List Char}
    (hplace : (scan .code x).next '\r' = (scan .code x).next '\n')
    (hbefore : endsInDirective (stripComments x) = false)
    (hbehind : ∀ line ∈ (lines (stripFrom ((scan .code x).next '\n').region rest)).head?,
      ¬ StartsDirective line) :
    EndsAlike (x ++ '\r' :: rest) (x ++ '\n' :: rest) := by
  obtain ⟨before, last, hlines⟩ := exists_lines_snoc (stripComments x)
  have hparted := parted_return hlines hplace
  obtain ⟨hblank, hline⟩ := forall₂_and.mp (blank_remains_return (scan .code x))
  have hstrip := passes_return.stripComments x rest
  rw [hplace] at hstrip
  generalize (scan .code x).remains '\r' = g at hparted hblank hline hstrip
  generalize hS : stripFrom ((scan .code x).next '\n').region rest = behind at hbehind hstrip
  obtain ⟨first, after, hafter⟩ := List.exists_cons_of_ne_nil (splitAt_ne_nil '\n' behind)
  have halone : splitAt '\n' g = [] ++ [g] := splitAt_of_not_mem fun hmem => hline _ hmem rfl
  have hjoined : lines (stripComments (x ++ '\r' :: rest)) =
      before ++ (last ++ (g ++ first)) :: after := by
    rw [hstrip]
    exact splitAt_glue hlines (splitAt_glue halone hafter)
  have hbroken : lines (stripComments (x ++ '\n' :: rest)) =
      before ++ last :: first :: after := by
    rw [stripComments_line, lines_append, hS, hlines, List.append_assoc]
    exact congrArg (before ++ last :: ·) hafter
  obtain ⟨hinside, hlast⟩ : insideAfter false before = false ∧ opensDirective last = false := by
    simpa [endsInDirective, hlines] using hbefore
  have hfirst : opensDirective first = false := by
    rw [← Bool.not_eq_true, opensDirective_iff]
    exact hbehind first (by rw [lines, hafter]; rfl)
  have hopens : opensDirective (last ++ (g ++ first)) = false := by
    rw [opensDirective_join, opensDirective_join, hlast, hfirst, opensDirective_blank hblank]
    simp
  have hwords : words (last ++ (g ++ first)) = words last ++ words first := by
    have hgap : words (g ++ (first ++ [])) = words first := words_padded hblank (by simp) first
    rw [List.append_nil] at hgap
    rw [words_append (hparted first), hgap]
  constructor
  case words =>
    rw [words_code, words_code, hjoined, hbroken, wordsOutside_append, wordsOutside_append, hinside]
    simp only [wordsOutside_cons, hopens, hlast, hfirst, hwords, Bool.or_false, Bool.false_eq_true,
      if_false, List.append_assoc]
  case place =>
    rw [scan_append, scan_append]
    exact congrArg (fun p => (scan p rest).next '\n') hplace
  case inside =>
    rw [hjoined, hbroken, insideAfter_append, insideAfter_append, hinside]
    simp only [insideAfter, hopens, hlast, hfirst, Bool.or_false, Bool.false_and]

/-- A characterisation of harmless carriage returns by the scanner and directive states around
them. -/
structure HarmlessWhen (before rest : List Char) : Prop where
  /-- In front of a newline, unless a backslash in a literal takes it for itself. -/
  paired : rest.head? = some '\n' →
    (Harmless before rest ↔ ∀ quote, scan .code before ≠ .escape quote)
  /-- Else just if the words that are left are the same whatever lines follow. -/
  alone : rest.head? ≠ some '\n' →
    (Harmless before rest ↔ ∀ more,
      words (code (before ++ '\r' :: restOfLine rest ++ '\n' :: more)) =
        words (code (before ++ '\n' :: restOfLine rest ++ '\n' :: more)))
  /-- So in code and in block comments, in a line of no directive and before one that starts
  none. -/
  calm : rest.head? ≠ some '\n' → (scan .code before).next '\r' = (scan .code before).next '\n' →
    endsInDirective (stripComments before) = false →
    (∀ line ∈ (lines (stripFrom ((scan .code before).next '\n').region (restOfLine rest))).head?,
      ¬ StartsDirective line) → Harmless before rest

theorem harmlessWhen (before rest : List Char) : HarmlessWhen before rest where
  paired hnewline := by
    rw [Harmless, if_pos hnewline]
    exact endsAlike_return_iff before
  alone hnewline := by
    rw [Harmless, if_neg hnewline]
    exact endsAlike_iff _ _
  calm hnewline hplace hbefore hbehind := by
    rw [Harmless, if_neg hnewline]
    exact endsAlike_alone hplace hbefore hbehind

/-- A block comment continues behind a carriage return; a line comment and a directive end
there when it is read as a newline. -/
example : HarmlessReturns "/* a\rb */".toList ∧ ¬ HarmlessReturns "// a\rb".toList ∧
    ¬ HarmlessReturns "#define a\rb".toList := by
  decide +kernel

end Kinds

end KernelLaunch.Source
