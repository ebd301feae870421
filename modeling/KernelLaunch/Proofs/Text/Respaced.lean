import Mathlib.Data.List.Infix
import KernelLaunch.Proofs.Text.Words

/-!
Texts that differ in blanks only. Where one has blanks, the other has blanks, but maybe others
and as many as it likes; only at the end it may have none. So both have the same words, and
what is read in one of them is read in the other one. A text is such a text of its words.
-/

namespace KernelLaunch.Text

/-- Two texts differ in their blanks only. -/
inductive Respaced : List Char → List Char → Prop where
  | ends {g g' : List Char} (hg : ∀ c ∈ g, isBlank c = true) (hg' : ∀ c ∈ g', isBlank c = true) :
      Respaced g g'
  | visible {c : Char} {x y : List Char} (hc : isBlank c = false) (rest : Respaced x y) :
      Respaced (c :: x) (c :: y)
  | blanks {g g' x y : List Char} (hg : g ≠ [] ∧ ∀ c ∈ g, isBlank c = true)
      (hg' : g' ≠ [] ∧ ∀ c ∈ g', isBlank c = true) (rest : Respaced x y) :
      Respaced (g ++ x) (g' ++ y)

namespace Respaced

variable {x y : List Char}

theorem symm (h : Respaced x y) : Respaced y x := by
  induction h with
  | ends hg hg' => exact ends hg' hg
  | visible hc _ ih => exact visible hc ih
  | blanks hg hg' _ ih => exact blanks hg' hg ih

theorem append_left (u : List Char) (h : Respaced x y) : Respaced (u ++ x) (u ++ y) := by
  induction u with
  | nil => exact h
  | cons c u ih =>
      by_cases hc : isBlank c = true
      · have hblank : [c] ≠ [] ∧ ∀ d ∈ [c], isBlank d = true := by simpa using hc
        have hboth : Respaced ([c] ++ (u ++ x)) ([c] ++ (u ++ y)) := blanks hblank hblank ih
        exact hboth
      · exact visible (by simpa using hc) ih

theorem refl (x : List Char) : Respaced x x := by
  have hnil : Respaced [] [] := ends (by simp) (by simp)
  simpa using hnil.append_left x

theorem splitWords_eq (h : Respaced x y) (word : List Char) :
    splitWords word x = splitWords word y := by
  induction h generalizing word with
  | ends hg hg' =>
      have hblank {g : List Char} (hg : ∀ c ∈ g, isBlank c = true) :
          splitWords word g = splitWords word [] := by
        by_cases hne : g = []
        · rw [hne]
        · simpa [splitWords] using splitWords_blanks hne hg word []
      rw [hblank hg, hblank hg']
  | @visible c x y hc _ ih =>
      have hsame (z : List Char) : splitWords word (c :: z) = splitWords (word ++ [c]) z := by
        rw [splitWords, if_neg (by simp [hc])]
      rw [hsame, hsame, ih]
  | blanks hg hg' _ ih => rw [splitWords_blanks hg.1 hg.2, splitWords_blanks hg'.1 hg'.2, ih]

theorem collapse_eq (h : Respaced x y) : collapse x = collapse y := by
  rw [collapse, collapse, words, words, h.splitWords_eq]

theorem visible_eq (h : Respaced x y) : Text.visible x = Text.visible y := by
  rw [← visible_collapse, h.collapse_eq, visible_collapse]

end Respaced

section Cuts

variable {c : Char} {g s x y : List Char}

/-- Blanks at the beginning of a text end before its first visible character. -/
theorem exists_of_blanks_append (hg : ∀ d ∈ g, isBlank d = true) (hc : isBlank c = false)
    (h : g ++ y = s ++ c :: x) : ∃ t, s = g ++ t ∧ y = t ++ c :: x := by
  rcases List.append_eq_append_iff.mp h with ⟨t, hs, hy⟩ | ⟨t, hgs, hx⟩
  · exact ⟨t, hs, hy⟩
  · cases t with
    | nil => exact ⟨[], by simpa using hgs.symm, hx.symm⟩
    | cons d t =>
        obtain ⟨rfl, _⟩ := List.cons.inj hx
        rw [hg c (by simp [hgs])] at hc
        cases hc

/-- A visible character of a text stands in the other one, too. -/
theorem Respaced.cut (hc : isBlank c = false) (h : Respaced (s ++ c :: x) y) :
    ∃ s' y', y = s' ++ c :: y' ∧ Respaced s s' ∧ (s = [] ↔ s' = []) ∧ Respaced x y' := by
  generalize hz : s ++ c :: x = z at h
  induction h generalizing s with
  | @ends g g' hg hg' =>
      rw [hg c (by simp [← hz])] at hc
      cases hc
  | @visible d z y hd rest ih =>
      cases s with
      | nil =>
          cases hz
          exact ⟨[], y, rfl, .refl [], Iff.rfl, rest⟩
      | cons e s =>
          obtain ⟨rfl, rfl⟩ := List.cons.inj hz
          obtain ⟨s', y', rfl, hs, _, hx⟩ := ih rfl
          exact ⟨e :: s', y', rfl, .visible hd hs, by simp, hx⟩
  | @blanks g g' z y hg hg' _ ih =>
      obtain ⟨t, rfl, rfl⟩ := exists_of_blanks_append hg.2 hc hz.symm
      obtain ⟨t', y', rfl, ht, _, hx⟩ := ih rfl
      exact ⟨g' ++ t', y', (List.append_assoc ..).symm, .blanks hg hg' ht, by simp [hg.1, hg'.1],
        hx⟩

/-- A word at the beginning of a text stands at the beginning of the other one. -/
theorem Respaced.word {u : List Char} (hu : ∀ d ∈ u, isBlank d = false)
    (h : Respaced (u ++ x) y) : ∃ y', y = u ++ y' ∧ Respaced x y' := by
  induction u generalizing y with
  | nil => exact ⟨y, rfl, h⟩
  | cons d u ih =>
      obtain ⟨s', y', rfl, _, hnil, hrest⟩ := Respaced.cut (s := []) (hu d List.mem_cons_self) h
      obtain ⟨y'', rfl, hx⟩ := ih (fun e he => hu e (List.mem_cons_of_mem d he)) hrest
      exact ⟨y'', by rw [hnil.mp rfl]; rfl, hx⟩

/-- Before a word of both texts there are blanks in both or in none of them. -/
theorem Respaced.gap {u : List Char} (hg : ∀ d ∈ g, isBlank d = true) (hne : u ≠ [])
    (hu : ∀ d ∈ u, isBlank d = false) (h : Respaced (g ++ (u ++ x)) y) :
    ∃ g' y', y = g' ++ (u ++ y') ∧ (∀ d ∈ g', isBlank d = true) ∧ (g = [] ↔ g' = []) ∧
      Respaced x y' := by
  cases u with
  | nil => exact absurd rfl hne
  | cons d u =>
      obtain ⟨g', y', rfl, hgap, hnil, hrest⟩ := Respaced.cut (hu d List.mem_cons_self) h
      obtain ⟨y'', rfl, hx⟩ := hrest.word fun e he => hu e (List.mem_cons_of_mem d he)
      have hvisible : Text.visible g' = [] := hgap.visible_eq.symm.trans (visible_eq_nil_iff.mpr hg)
      exact ⟨g', y'', rfl, visible_eq_nil_iff.mp hvisible, hnil, hx⟩

/-- What stands in a text without blanks stands in the other one. -/
theorem Respaced.part {u : List Char} (hu : ∀ d ∈ u, isBlank d = false) (h : Respaced x y)
    (hpart : u <:+: x) : u <:+: y := by
  cases u with
  | nil => exact List.nil_infix
  | cons d u =>
      obtain ⟨s, t, rfl⟩ := hpart
      rw [List.append_assoc, List.cons_append] at h
      obtain ⟨s', y', rfl, _, _, hrest⟩ := h.cut (hu d List.mem_cons_self)
      obtain ⟨t', rfl, _⟩ := hrest.word fun e he => hu e (List.mem_cons_of_mem d he)
      exact ⟨s', t', by simp⟩

end Cuts

section Collapse

/-- Words with a space before each one differ in blanks only from the text that they are cut
from; `g` and `word` stand before it. -/
theorem respaced_splitWords (x : List Char) {g : List Char} (word : List Char)
    (hg : g ≠ [] ∧ ∀ c ∈ g, isBlank c = true) (hword : ∀ c ∈ word, isBlank c = false) :
    Respaced (g ++ (word ++ x)) ((splitWords word x).flatMap ([' '] ++ ·)) := by
  have hspace : [' '] ≠ [] ∧ ∀ c ∈ [' '], isBlank c = true := ⟨by simp, blank_space⟩
  induction x generalizing g word with
  | nil =>
      rw [splitWords]
      split
      · next hnil =>
        rw [List.isEmpty_iff.mp hnil]
        simpa using Respaced.ends hg.2 (by simp)
      · simpa using Respaced.blanks hg hspace (.refl word)
  | cons c x ih =>
      rw [splitWords]
      split
      · next hc =>
        split
        · next hnil =>
          have hmore : g ++ [c] ≠ [] ∧ ∀ d ∈ g ++ [c], isBlank d = true := by
            refine ⟨by simp, fun d hd => ?_⟩
            rcases List.mem_append.mp hd with hd | hd
            · exact hg.2 d hd
            · rwa [List.mem_singleton.mp hd]
          have hrest := ih [] hmore (by simp)
          rw [List.isEmpty_iff.mp hnil]
          simpa using hrest
        · have hrest := ih (g := [c]) [] (by simpa using hc) (by simp)
          simpa using Respaced.blanks hg hspace (hrest.append_left word)
      · next hc =>
        have hmore : ∀ d ∈ word ++ [c], isBlank d = false := by
          intro d hd
          rcases List.mem_append.mp hd with hd | hd
          · exact hword d hd
          · rw [List.mem_singleton.mp hd]
            simpa using hc
        have hrest := ih (word ++ [c]) hg hmore
        simpa using hrest

theorem flatMap_spaced {ws : List (List Char)} (h : ws ≠ []) :
    ws.flatMap ([' '] ++ ·) = ' ' :: joinWith [' '] ws := by
  induction ws with
  | nil => exact absurd rfl h
  | cons w ws ih =>
      by_cases hne : ws = []
      · subst hne
        simp [joinWith]
      · rw [List.flatMap_cons, ih hne, joinWith_cons _ _ hne]
        simp

/-- A text and its words with single spaces between them, both after a blank. -/
theorem respaced_collapse (x : List Char) : Respaced (' ' :: x) (' ' :: collapse x) := by
  have hspace : [' '] ≠ [] ∧ ∀ c ∈ [' '], isBlank c = true := ⟨by simp, blank_space⟩
  have hwords := respaced_splitWords x [] hspace (by simp)
  rw [collapse]
  by_cases hne : words x = []
  · have hblank : ∀ c ∈ x, isBlank c = true := by
      rw [← visible_eq_nil_iff, ← visible_collapse, collapse, hne]
      rfl
    rw [hne]
    exact .blanks hspace hspace (.ends hblank (by simp))
  · rw [← flatMap_spaced hne]
    exact hwords

theorem collapse_space (x : List Char) : collapse (' ' :: x) = collapse x := by
  have hpadded : collapse ([' '] ++ (x ++ [])) = collapse x :=
    collapse_padded blank_space (by simp) x
  simpa using hpadded

theorem collapse_again (x : List Char) : collapse (collapse x) = collapse x := by
  rw [← collapse_space (collapse x), ← (respaced_collapse x).collapse_eq, collapse_space]

end Collapse

end KernelLaunch.Text
