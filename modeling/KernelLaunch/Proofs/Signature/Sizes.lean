import KernelLaunch.Proofs.Signature.Marks

/-!
Array sizes after the name of a parameter. They are taken out from bracket to
bracket, whatever stands between, and no word goes on from the name to them.
-/

namespace KernelLaunch.Signature

open Text

/-- A text in which nothing promises to read only. -/
def IsSilent (e : List Char) : Prop := ∀ m : Modifier, m.readsOnly = true → ¬ WordIn m.text e

/-- Whether a word of a text promises to read only. -/
def promises (cs : List Char) : Bool :=
  (runs cs).any fun (isWord, run) => isWord && isOneOf ["const", "constant"] run

theorem isSilent_iff {e : List Char} : IsSilent e ↔ promises e = false := by
  rw [promises, List.any_eq_false]
  constructor
  · rintro hsilent ⟨isRun, run⟩ hrun hconstant
    obtain ⟨rfl, hconstant⟩ := Bool.and_eq_true_iff.mp hconstant
    obtain ⟨m, hreads, rfl⟩ := isConstant_iff.mp hconstant
    exact hsilent m hreads (wordIn_of_mem_runs hrun)
  · intro hnone m hreads hword
    have hrun := (wordIn_iff m.text_ne_nil m.text_word).mp hword
    exact hnone _ hrun (isConstant_iff.mpr ⟨m, hreads, rfl⟩)

/-- A piece of a declaration after the name. -/
inductive Suffix where
  | blank (c : Char) (isBlank : isBlank c = true)
  | size (e : List Char) (unclosed : ']' ∉ e) (silent : IsSilent e)

namespace Suffix

def text : Suffix → List Char
  | blank c _ => [c]
  | size e _ _ => '[' :: (e ++ [']'])

def isSize : Suffix → Bool
  | blank _ _ => false
  | size _ _ _ => true

end Suffix

def suffixText (ss : List Suffix) : List Char := ss.flatMap Suffix.text

theorem isWord_open : isWord '[' = false := by decide +kernel

theorem isWord_close : isWord ']' = false := by decide +kernel

theorem suffixText_blank {c : Char} (isBlank : isBlank c = true) (ss : List Suffix) :
    suffixText (.blank c isBlank :: ss) = c :: suffixText ss := rfl

theorem suffixText_size (e : List Char) (unclosed : ']' ∉ e) (silent : IsSilent e)
    (ss : List Suffix) :
    suffixText (.size e unclosed silent :: ss) = '[' :: (e ++ ']' :: suffixText ss) := by
  simp [suffixText, Suffix.text]

theorem head_suffixText (ss : List Suffix) : ∀ d ∈ (suffixText ss).head?, isWord d = false := by
  cases ss with
  | nil => simp [suffixText]
  | cons s ss =>
      cases s with
      | blank c isBlank =>
          rintro d ⟨⟩
          exact isWord_of_blank isBlank
      | size e unclosed silent =>
          rintro d ⟨⟩
          exact isWord_open

section Qualifiers

theorem dropQualifiers_of_not_word {c : Char} (hc : isWord c = false) (rest : List Char) :
    dropQualifiers (c :: rest) = c :: dropQualifiers rest := by
  rw [dropQualifiers, runs_of_not_word hc]
  rfl

/-- Qualifiers are taken out before and after a bracket that closes. -/
theorem dropQualifiers_close (x y : List Char) :
    dropQualifiers (x ++ ']' :: y) = dropQualifiers x ++ ']' :: dropQualifiers y := by
  rw [← dropQualifiers_of_not_word isWord_close, dropQualifiers, dropQualifiers, dropQualifiers,
    runs_append (.of_head (by rintro d ⟨⟩; exact isWord_close)), List.flatMap_append]

theorem dropQualifiers_size (e rest : List Char) :
    dropQualifiers ('[' :: (e ++ ']' :: rest)) =
      '[' :: (dropQualifiers e ++ ']' :: dropQualifiers rest) := by
  rw [dropQualifiers_of_not_word isWord_open, dropQualifiers_close]

theorem dropQualifiers_blanks {g : List Char} (h : ∀ c ∈ g, isBlank c = true)
    (rest : List Char) : dropQualifiers (g ++ rest) = g ++ dropQualifiers rest := by
  induction g with
  | nil => rfl
  | cons c g ih =>
      rw [List.cons_append, dropQualifiers_of_not_word (isWord_of_blank (h c List.mem_cons_self)),
        ih fun d hd => h d (List.mem_cons_of_mem c hd), List.cons_append]

/-- Taking qualifiers out leaves only spaces for them. -/
theorem mem_dropQualifiers {c : Char} {cs : List Char} (h : c ∈ dropQualifiers cs) :
    c = ' ' ∨ c ∈ cs := by
  obtain ⟨⟨isRun, run⟩, hrun, hc⟩ := List.mem_flatMap.mp h
  dsimp only at hc
  split at hc
  · exact .inl (List.mem_singleton.mp hc)
  · right
    rw [← flatten_runs cs, List.mem_flatten]
    exact ⟨run, List.mem_map.mpr ⟨_, hrun, rfl⟩, hc⟩

theorem dropQualifiers_textOf {ms : List Mark} (h : Separate ms) {rest : List Char}
    (hrest : ∀ d ∈ rest.head?, isWord d = false) :
    dropQualifiers (textOf ms ++ rest) = ms.flatMap Mark.kept ++ dropQualifiers rest := by
  have hkept : ∀ m : Mark, (if m.isRun && (isAttribute m.text || isOneOf qualifiers m.text) then
      [' '] else m.text) = m.kept := by
    intro m
    cases m with
    | word w plain =>
        have hplain : ¬ (isAttribute w || isOneOf qualifiers w) = true := by
          rw [isModifier_iff plain.isName.word]
          rintro ⟨m, hm⟩
          exact plain.notModifier m hm
        exact if_neg hplain
    | modifier m =>
        have hmodifier : (isAttribute m.text || isOneOf qualifiers m.text) = true :=
          (isModifier_iff m.text_word).mpr ⟨m, rfl⟩
        exact if_pos hmodifier
    | star => rfl
    | blank c isBlank => rfl
  rw [dropQualifiers, runs_textOf h hrest, List.flatMap_append, List.flatMap_map]
  simp only [hkept]
  rfl

end Qualifiers

section Sizes

theorem dropSizes_free {x : List Char} (h : '[' ∉ x) (y : List Char) :
    dropSizes false (x ++ y) = x ++ dropSizes false y := by
  induction x with
  | nil => rfl
  | cons c x ih =>
      have hc : c ≠ '[' := fun heq => h (heq ▸ List.mem_cons_self)
      rw [List.cons_append, dropSizes, if_neg fun hopens => hc hopens.1,
        ih fun hmem => h (List.mem_cons_of_mem c hmem), List.cons_append]

theorem dropSizes_inside {e : List Char} (h : ']' ∉ e) (rest : List Char) :
    dropSizes true (e ++ ']' :: rest) = dropSizes false rest := by
  induction e with
  | nil => rfl
  | cons c e ih =>
      have hc : c ≠ ']' := fun heq => h (heq ▸ List.mem_cons_self)
      have hinside : (c != ']') = true := by simpa using hc
      rw [List.cons_append, dropSizes, hinside]
      exact ih fun hmem => h (List.mem_cons_of_mem c hmem)

theorem dropSizes_size {e : List Char} (h : ']' ∉ e) (rest : List Char) :
    dropSizes false ('[' :: (e ++ ']' :: rest)) = ' ' :: dropSizes false rest := by
  rw [dropSizes, if_pos ⟨rfl, by simp⟩, dropSizes_inside h]

/-- Nothing but blanks is left after the name. -/
theorem blank_of_suffix (ss : List Suffix) :
    ∀ c ∈ dropSizes false (dropQualifiers (suffixText ss)), isBlank c = true := by
  induction ss with
  | nil => simp [suffixText, dropQualifiers, runs, dropSizes]
  | cons s ss ih =>
      cases s with
      | blank c isBlank =>
          have hopen : c ≠ '[' := by
            rintro rfl
            revert isBlank
            decide
          rw [suffixText_blank, dropQualifiers_of_not_word (isWord_of_blank isBlank), dropSizes,
            if_neg fun hopens => hopen hopens.1]
          intro d hd
          rcases List.mem_cons.mp hd with rfl | hd
          · exact isBlank
          · exact ih d hd
      | size e unclosed silent =>
          have hclosed : ']' ∉ dropQualifiers e := by
            intro hmem
            rcases mem_dropQualifiers hmem with heq | hmem
            · revert heq
              decide
            · exact unclosed hmem
          rw [suffixText_size, dropQualifiers_size, dropSizes_size hclosed]
          intro d hd
          rcases List.mem_cons.mp hd with rfl | hd
          · decide
          · exact ih d hd

/-- A text holds a size if a bracket that opens is closed later. -/
theorem hasSize_iff {cs : List Char} :
    hasSize cs = true ↔ ∃ before rest, cs = before ++ '[' :: rest ∧ ']' ∈ rest := by
  induction cs with
  | nil => simp [hasSize]
  | cons c cs ih =>
      rw [hasSize, Bool.or_eq_true, Bool.and_eq_true, beq_iff_eq, List.contains_iff_mem, ih]
      constructor
      · rintro (⟨rfl, hclosed⟩ | ⟨before, rest, rfl, hclosed⟩)
        · exact ⟨[], cs, rfl, hclosed⟩
        · exact ⟨c :: before, rest, rfl, hclosed⟩
      · rintro ⟨before, rest, hcut, hclosed⟩
        cases before with
        | nil =>
            cases hcut
            exact .inl ⟨rfl, hclosed⟩
        | cons d before =>
            cases hcut
            exact .inr ⟨before, rest, rfl, hclosed⟩

end Sizes

end KernelLaunch.Signature
