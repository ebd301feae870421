import KernelLaunch.Proofs.Source.Directive
import KernelLaunch.Proofs.Source.Removal
import KernelLaunch.Proofs.Text.Respaced
import KernelLaunch.Source.Interface

/-!
Plain texts: those in which no literal and no comment begins. Comments are removed from a text
without quotes until it is plain, and it stays so when directives are taken away or blanks are
changed. Nothing is removed from a plain line that is no directive.
-/

namespace KernelLaunch.Source

open Text

section Parts

variable {u x y : List Char} {c : Char}

theorem prefix_of_prefix_append_cons (hu : c ∉ u) (h : u <+: x ++ c :: y) : u <+: x := by
  induction x generalizing u with
  | nil =>
      rcases List.prefix_cons_iff.mp h with rfl | ⟨t, rfl, _⟩
      · exact List.nil_prefix
      · exact absurd List.mem_cons_self hu
  | cons d x ih =>
      rcases List.prefix_cons_iff.mp h with rfl | ⟨t, rfl, ht⟩
      · exact List.nil_prefix
      · exact List.cons_prefix_cons.mpr ⟨rfl, ih (fun hmem => hu (List.mem_cons_of_mem d hmem)) ht⟩

/-- What does not hold a character stands on one side of it. -/
theorem infix_or_infix (hu : c ∉ u) (h : u <:+: x ++ c :: y) : u <:+: x ∨ u <:+: y := by
  induction x with
  | nil =>
      rcases List.infix_cons_iff.mp h with hstarts | hrest
      · exact .inl (prefix_of_prefix_append_cons (x := []) hu hstarts).isInfix
      · exact .inr hrest
  | cons d x ih =>
      rcases List.infix_cons_iff.mp h with hstarts | hrest
      · exact .inl (prefix_of_prefix_append_cons (x := d :: x) hu hstarts).isInfix
      · exact (ih hrest).imp_left fun hpart => hpart.trans (List.suffix_cons d x).isInfix

end Parts

/-- How literals and comments begin. -/
def openers : List (List Char) := [['"'], ['\''], ['/', '/'], ['/', '*']]

theorem openers_visible : ∀ u ∈ openers, ∀ c ∈ u, isBlank c = false := by
  simp [openers, isBlank]

/-- A text in which no literal and no comment begins. -/
def IsPlain (cs : List Char) : Prop := ∀ u ∈ openers, ¬ u <:+: cs

namespace IsPlain

variable {x y : List Char}

theorem nil : IsPlain [] := by
  intro u hu hpart
  rw [List.infix_nil.mp hpart] at hu
  revert hu
  decide

theorem cons {c : Char} (hc : c ≠ '"' ∧ c ≠ '\'')
    (hnext : c = '/' → ∀ d ∈ x.head?, d ≠ '/' ∧ d ≠ '*') (h : IsPlain x) : IsPlain (c :: x) := by
  intro u hu hopener
  rcases List.infix_cons_iff.mp hopener with hstarts | hrest
  · obtain ⟨rest, heq⟩ := hstarts
    simp only [openers, List.mem_cons, List.not_mem_nil, or_false] at hu
    rcases hu with rfl | rfl | rfl | rfl
    · exact hc.1 (List.cons.inj heq).1.symm
    · exact hc.2 (List.cons.inj heq).1.symm
    · cases heq
      exact (hnext rfl '/' rfl).1 rfl
    · cases heq
      exact (hnext rfl '*' rfl).2 rfl
  · exact h u hu hrest

theorem part (h : IsPlain y) (hpart : x <:+: y) : IsPlain x :=
  fun u hu hopener => h u hu (hopener.trans hpart)

theorem respaced (h : IsPlain x) (hxy : Respaced x y) : IsPlain y :=
  fun u hu hopener => h u hu (hxy.symm.part (openers_visible u hu) hopener)

/-- Texts are plain together if what stands between them is part of no opener. -/
theorem append_cons {c : Char} (hc : ∀ u ∈ openers, c ∉ u) (hx : IsPlain x) (hy : IsPlain y) :
    IsPlain (x ++ c :: y) := by
  intro u hu hopener
  rcases infix_or_infix (hc u hu) hopener with hpart | hpart
  · exact hx u hu hpart
  · exact hy u hu hpart

/-- Words and blanks are plain. -/
theorem of_words (h : ∀ c ∈ x, isWord c = true ∨ isBlank c = true) : IsPlain x := by
  intro u hu hopener
  have hother : ∀ u ∈ openers, ∃ c ∈ u, isWord c = false ∧ isBlank c = false := by
    simp [openers, isWord, isLatin, isBlank]
  obtain ⟨c, hc, hword, hblank⟩ := hother u hu
  have hmem := h c (hopener.subset hc)
  rw [hword, hblank] at hmem
  simp at hmem

theorem unlines {ls : List (List Char)} (h : ∀ l ∈ ls, IsPlain l) : IsPlain (unlines ls) := by
  induction ls with
  | nil => exact nil
  | cons l ls ih =>
      by_cases hne : ls = []
      · subst hne
        exact h l List.mem_cons_self
      · rw [unlines_cons hne]
        exact append_cons (by decide) (h l List.mem_cons_self)
          (ih fun m hm => h m (List.mem_cons_of_mem l hm))

end IsPlain

section Comments

theorem strip_plain {cs : List Char} (h : IsPlain cs) : stripComments cs = cs := by
  have hquote {q : Char} (hq : [q] ∈ openers) : q ∉ cs := by
    intro hmem
    obtain ⟨before, after, rfl⟩ := List.append_of_mem hmem
    exact h [q] hq ⟨before, after, by simp⟩
  have hfree := strip_free cs [] ⟨hquote (by decide), hquote (by decide)⟩ (h _ (by decide))
    (h _ (by decide)) fun _ => rfl
  simpa [stripComments, stripFrom] using hfree

theorem length_stripFrom_le (r : Region) (cs : List Char) :
    (stripFrom r cs).length ≤ cs.length := by
  fun_induction stripFrom r cs <;> simp <;> omega

theorem mem_stripFrom {r : Region} {cs : List Char} {c : Char} (hc : isBlank c = false)
    (h : c ∈ stripFrom r cs) : c ∈ cs := by
  have hspace : c ≠ ' ' := by
    rintro rfl
    cases hc
  fun_induction stripFrom r cs <;> grind

/-- A text that has quotes nowhere and in which nothing is removed is plain. -/
theorem isPlain_of_kept {cs : List Char} (hquotes : '"' ∉ cs ∧ '\'' ∉ cs)
    (h : stripComments cs = cs) : IsPlain cs := by
  induction cs with
  | nil => exact .nil
  | cons c cs ih =>
      have hcs : '"' ∉ cs ∧ '\'' ∉ cs := hquotes.imp (mt (List.mem_cons_of_mem c))
        (mt (List.mem_cons_of_mem c))
      have hc : c ≠ '"' ∧ c ≠ '\'' := by
        refine ⟨?_, ?_⟩ <;> rintro rfl
        · exact hquotes.1 List.mem_cons_self
        · exact hquotes.2 List.mem_cons_self
      unfold stripComments at h ih
      by_cases hslash : c = '/'
      · subst hslash
        cases cs with
        | nil => exact .cons hc (by simp) .nil
        | cons d rest =>
            by_cases hline : d = '/'
            · -- A comment up to the end of its line would be missing.
              subst hline
              have hlength := length_stripFrom_le .lineComment rest
              have hfewer := congrArg List.length h
              rw [stripFrom] at hfewer
              simp only [List.length_cons] at hfewer
              omega
            · by_cases hblock : d = '*'
              · subst hblock
                rw [stripFrom] at h
                cases h
              · rw [strip_slash hline hblock] at h
                exact .cons hc (by simp [hline, hblock]) (ih hcs (List.cons.inj h).2)
      · have hcode : Region.ofCode c = .code := if_neg (by simp [hc])
        rw [strip_code hslash, hcode] at h
        exact .cons hc (fun heq => absurd heq hslash) (ih hcs (List.cons.inj h).2)

/-- Comments are removed from a text without quotes until it is plain. -/
theorem isPlain_stripComments {cs : List Char} (h : '"' ∉ cs ∧ '\'' ∉ cs) :
    IsPlain (stripComments cs) := by
  refine isPlain_of_kept ⟨fun hmem => ?_, fun hmem => ?_⟩ (stripComments_again cs)
  · exact h.1 (mem_stripFrom (by decide) hmem)
  · exact h.2 (mem_stripFrom (by decide) hmem)

end Comments

section Directives

theorem IsPlain.stripDirectives {cs : List Char} (h : IsPlain cs) :
    IsPlain (stripDirectives cs) := by
  apply IsPlain.unlines
  intro l hl
  have hline := infix_joinWith (keptLines_subset false _ hl) ['\n']
  rw [lines, joinWith_splitAt] at hline
  exact h.part hline

/-- What is searched for kernels is plain if the source has no quotes. -/
theorem isPlain_code {cs : List Char} (h : '"' ∉ cs ∧ '\'' ∉ cs) : IsPlain (code cs) :=
  (isPlain_stripComments h).stripDirectives

/-- A plain line that is no directive is searched as it is. -/
theorem code_line {cs : List Char} (hplain : IsPlain cs) (hline : '\n' ∉ cs)
    (hopens : opensDirective cs = false) : code cs = cs := by
  rw [code, strip_plain hplain, stripDirectives, lines, splitAt_of_not_mem hline]
  simp [keptLines, hopens, unlines, joinWith]

end Directives

end KernelLaunch.Source
