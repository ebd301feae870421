import KernelLaunch.Proofs.Signature.Sizes

/-!
What the written form of a declaration tells: the words of its type and its name
in order, whether it promises to read only, and whether it stands for many
elements.
-/

namespace KernelLaunch.Signature

open Text

section Words

theorem isWord_star : isWord '*' = false := by decide +kernel

theorem star_of_mem_text {m : Mark} (h : '*' ∈ m.text) : m = .star := by
  rcases m.star_or_blank h isWord_star with ⟨hstar, _⟩ | hblank
  · exact hstar
  · exact absurd hblank (by decide)

theorem open_not_mem_text (m : Mark) : '[' ∉ m.text := by
  intro h
  rcases m.star_or_blank h isWord_open with ⟨_, hstar⟩ | hblank
  · exact absurd hstar (by decide)
  · exact absurd hblank (by decide)

theorem open_not_mem_kept (m : Mark) : '[' ∉ m.kept := by
  cases m with
  | modifier m => simp [Mark.kept]
  | word w plain => exact open_not_mem_text (.word w plain)
  | star => exact open_not_mem_text .star
  | blank c isBlank => exact open_not_mem_text (.blank c isBlank)

theorem map_of_star_not_mem {cs : List Char} (h : '*' ∉ cs) :
    (cs.map fun c => if c = '*' then ' ' else c) = cs := by
  have hsame : ∀ c ∈ cs, (if c = '*' then ' ' else c) = c := fun c hc =>
    if_neg fun (hstar : c = '*') => h (hstar ▸ hc)
  exact (List.map_congr_left hsame).trans (List.map_id cs)

/-- Stars are replaced last. -/
theorem kept_map (m : Mark) : (m.kept.map fun c => if c = '*' then ' ' else c) = m.left := by
  cases m with
  | word w plain =>
      exact map_of_star_not_mem fun h => nomatch star_of_mem_text (m := .word w plain) h
  | blank c isBlank =>
      exact map_of_star_not_mem fun h => nomatch star_of_mem_text (m := .blank c isBlank) h
  | modifier m => rfl
  | star => rfl

/-- Without modifiers and stars it is a word or a blank. -/
theorem left_cases (m : Mark) :
    (m.isRun = true ∧ m.left ≠ [] ∧ (∀ c ∈ m.left, isBlank c = false) ∧ m.word? = some m.left) ∨
      ∃ c, m.left = [c] ∧ isBlank c = true ∧ m.word? = none := by
  cases m with
  | word w plain =>
      obtain ⟨hrun, hne, hword⟩ | ⟨hrun, _⟩ := (Mark.word w plain).text_cases
      · exact .inl ⟨hrun, hne, fun c hc => isBlank_of_word (hword c hc), rfl⟩
      · cases hrun
  | blank c isBlank => exact .inr ⟨c, rfl, isBlank, rfl⟩
  | _ => exact .inr ⟨' ', rfl, by decide, rfl⟩

theorem Separate.parted_left {m : Mark} {ms : List Mark} (h : Separate (m :: ms))
    {blanks : List Char} (hblanks : ∀ c ∈ blanks, isBlank c = true) :
    Parted isNotBlank m.left (ms.flatMap Mark.left ++ blanks) := by
  rcases left_cases m with ⟨hrun, _⟩ | ⟨c, hleft, hc, _⟩
  · apply Parted.of_head
    intro d hd
    cases ms with
    | nil => simp [isNotBlank, hblanks d (List.mem_of_mem_head? hd)]
    | cons next ms =>
        rcases left_cases next with ⟨hnext, _⟩ | ⟨c, hleft, hc, _⟩
        · exact absurd ⟨hrun, hnext⟩ (List.isChain_cons_cons.mp h).1
        · rw [List.flatMap_cons, hleft] at hd
          cases hd
          simp [isNotBlank, hc]
  · apply Parted.of_last
    rw [hleft]
    rintro d ⟨⟩
    simp [isNotBlank, hc]

theorem words_left {ms : List Mark} (h : Separate ms) {blanks : List Char}
    (hblanks : ∀ c ∈ blanks, isBlank c = true) :
    words (ms.flatMap Mark.left ++ blanks) = ms.filterMap Mark.word? := by
  induction ms with
  | nil => exact words_blanks hblanks
  | cons m ms ih =>
      rw [List.flatMap_cons, List.append_assoc, words_append (h.parted_left hblanks), ih h.tail]
      rcases left_cases m with ⟨_, hne, hleft, hword⟩ | ⟨c, hleft, hc, hword⟩
      · rw [words_notBlank hne hleft, List.filterMap_cons_some hword]
        rfl
      · rw [hleft, words_blank hc, List.filterMap_cons_none hword]
        rfl

/-- A declaration is cut into words by its marks and by what is left of its tail. -/
theorem typeWords_cut {ms : List Mark} (h : Separate ms) {tail : List Char}
    (hhead : ∀ d ∈ tail.head?, isWord d = false) :
    typeWords (textOf ms ++ tail) = words (ms.flatMap Mark.left ++
      (dropSizes false (dropQualifiers tail)).map fun c => if c = '*' then ' ' else c) := by
  have hopen : '[' ∉ ms.flatMap Mark.kept := by
    intro hmem
    obtain ⟨m, _, hm⟩ := List.mem_flatMap.mp hmem
    exact open_not_mem_kept m hm
  rw [typeWords, dropQualifiers_textOf h hhead, dropSizes_free hopen, List.map_append,
    List.map_flatMap]
  simp only [kept_map]

/-- What follows a name adds no words if only blanks are left of it. -/
theorem typeWords_append {ms : List Mark} (h : Separate ms) {tail : List Char}
    (hhead : ∀ d ∈ tail.head?, isWord d = false)
    (htail : ∀ c ∈ dropSizes false (dropQualifiers tail), isBlank c = true) :
    typeWords (textOf ms ++ tail) = ms.filterMap Mark.word? := by
  rw [typeWords_cut h hhead]
  apply words_left h
  intro c hc
  obtain ⟨d, hd, rfl⟩ := List.mem_map.mp hc
  split
  · decide
  · exact htail d hd

/-- The words of a declaration are those of its marks, whatever sizes follow. -/
theorem typeWords_text {ms : List Mark} (h : Separate ms) (ss : List Suffix) :
    typeWords (textOf ms ++ suffixText ss) = ms.filterMap Mark.word? :=
  typeWords_append h (head_suffixText ss) (blank_of_suffix ss)

theorem typeAndName_single {cs only : List Char} (h : typeWords cs = [only]) :
    typeAndName cs = (only, []) := by
  rw [typeAndName, h]

/-- The last of several words is the name. -/
theorem typeAndName_several {cs last : List Char} {before : List (List Char)}
    (h : typeWords cs = before ++ [last]) (hne : before ≠ []) :
    typeAndName cs = (joinWith [' '] before, last) := by
  obtain ⟨first, rest, hbefore⟩ := List.exists_cons_of_ne_nil hne
  have hmany : typeAndName cs =
      (joinWith [' '] (before ++ [last]).dropLast, (before ++ [last]).getLastD []) := by
    rw [typeAndName, h, hbefore]
    cases rest <;> rfl
  rw [hmany, List.dropLast_concat]
  simp

end Words

section Direction

theorem promises_of_not_word {c : Char} (hc : isWord c = false) (rest : List Char) :
    promises (c :: rest) = promises rest := by
  rw [promises, runs_of_not_word hc]
  rfl

theorem promises_append {x y : List Char} (h : Parted isWord x y) :
    promises (x ++ y) = (promises x || promises y) := by
  rw [promises, runs_append h, List.any_append]
  rfl

/-- What stands in a size promises for the whole declaration. -/
theorem promises_size (e rest : List Char) :
    promises ('[' :: (e ++ ']' :: rest)) = (promises e || promises rest) := by
  rw [promises_of_not_word isWord_open,
    promises_append (.of_head (by rintro d ⟨⟩; exact isWord_close)),
    promises_of_not_word isWord_close]

/-- Sizes promise nothing. -/
theorem suffixText_silent (ss : List Suffix) : promises (suffixText ss) = false := by
  induction ss with
  | nil => rfl
  | cons s ss ih =>
      cases s with
      | blank c isBlank => rw [suffixText_blank, promises_of_not_word (isWord_of_blank isBlank), ih]
      | size e unclosed silent =>
          rw [suffixText_size, promises_size, isSilent_iff.mp silent, ih]
          rfl

theorem isReadOnly_text {ms : List Mark} (h : Separate ms) (ss : List Suffix) :
    isReadOnly (String.ofList (textOf ms ++ suffixText ss)) = true ↔
      ∃ m ∈ ms.filterMap Mark.modifier?, m.readsOnly = true := by
  have hsuffix := suffixText_silent ss
  unfold promises at hsuffix
  rw [isReadOnly, String.toList_ofList, runs_textOf h (head_suffixText ss), List.any_append,
    hsuffix, Bool.or_false, List.any_map, List.any_eq_true]
  constructor
  · rintro ⟨m, hm, hpromise⟩
    obtain ⟨hrun, hconstant⟩ := Bool.and_eq_true_iff.mp hpromise
    cases m with
    | word w plain =>
        obtain ⟨modifier, _, htext⟩ := isConstant_iff.mp hconstant
        exact absurd htext (plain.notModifier modifier)
    | modifier m =>
        exact ⟨m, List.mem_filterMap.mpr ⟨_, hm, rfl⟩, (isConstant_text m).symm.trans hconstant⟩
    | _ => cases hrun
  · rintro ⟨modifier, hmem, hreads⟩
    obtain ⟨m, hm, hmodifier⟩ := List.mem_filterMap.mp hmem
    cases m with
    | modifier m =>
        cases hmodifier
        exact ⟨_, hm, Bool.and_eq_true_iff.mpr ⟨rfl, isConstant_iff.mpr ⟨_, hreads, rfl⟩⟩⟩
    | _ => cases hmodifier

end Direction

section Shape

/-- Characters after the name that are not blank belong to a size. -/
theorem size_of_mem_suffixText {ss : List Suffix} {c : Char} (h : c ∈ suffixText ss)
    (hc : isBlank c = false) : ∃ s ∈ ss, s.isSize = true := by
  obtain ⟨s, hs, hmem⟩ := List.mem_flatMap.mp h
  cases s with
  | blank d isBlank =>
      rw [← List.mem_singleton.mp hmem, hc] at isBlank
      cases isBlank
  | size e unclosed silent => exact ⟨_, hs, rfl⟩

theorem isPointer_text (ms : List Mark) (ss : List Suffix) :
    isPointer (String.ofList (textOf ms ++ suffixText ss)) = true ↔
      Mark.star ∈ ms ∨ ∃ s ∈ ss, s.isSize = true := by
  rw [isPointer, String.toList_ofList, Bool.or_eq_true, List.contains_iff_mem, hasSize_iff]
  constructor
  · rintro (hstar | ⟨before, rest, hcut, _⟩)
    · rcases List.mem_append.mp hstar with hstar | hstar
      · obtain ⟨m, hm, hstar⟩ := List.mem_flatMap.mp hstar
        exact .inl (star_of_mem_text hstar ▸ hm)
      · exact .inr (size_of_mem_suffixText hstar (by decide))
    · have hopen : '[' ∈ textOf ms ++ suffixText ss := by
        rw [hcut]
        simp
      rcases List.mem_append.mp hopen with hopen | hopen
      · obtain ⟨m, _, hopen⟩ := List.mem_flatMap.mp hopen
        exact absurd hopen (open_not_mem_text m)
      · exact .inr (size_of_mem_suffixText hopen (by decide))
  · rintro (hstar | ⟨s, hs, hsize⟩)
    · left
      exact List.mem_append_left _ (List.mem_flatMap.mpr ⟨.star, hstar, List.mem_singleton_self _⟩)
    · right
      obtain ⟨first, others, rfl⟩ := List.append_of_mem hs
      cases s with
      | blank c isBlank => cases hsize
      | size e unclosed silent =>
          refine ⟨textOf ms ++ suffixText first, e ++ ']' :: suffixText others, ?_, by simp⟩
          have hcut : suffixText (first ++ .size e unclosed silent :: others) =
              suffixText first ++ '[' :: (e ++ ']' :: suffixText others) := by
            rw [← suffixText_size e unclosed silent]
            exact List.flatMap_append
          rw [hcut, List.append_assoc]

end Shape

end KernelLaunch.Signature
