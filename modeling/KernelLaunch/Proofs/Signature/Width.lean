import KernelLaunch.Proofs.Source.Header
import KernelLaunch.Signature.Declaration

/-!
Vector widths: one or two digits at the end of a type name, after a letter or an underscore,
which are not part of the element type.
-/

namespace KernelLaunch.Signature

open Text

/-- Digits that can be a vector width. -/
def IsWidth (digits : List Char) : Prop :=
  (digits.length = 1 ∨ digits.length = 2) ∧ ∀ d ∈ digits, isDigit d = true

/-- A type name, and what it is without its vector width, if it has one. -/
inductive WithoutWidth : List Char → List Char → Prop
  | cut {base digits : List Char} {c : Char} (hc : isNameStart c = true) (width : IsWidth digits) :
      WithoutWidth (base ++ c :: digits) (base ++ [c])
  | whole {name : List Char} (none : ∀ base c digits, isNameStart c = true → IsWidth digits →
      name ≠ base ++ c :: digits) : WithoutWidth name name

theorem isDigit_of_nameStart {c : Char} (h : isNameStart c = true) : isDigit c = false := by
  have hall : ∀ n < 128, isNameStart (Char.ofNat n) = true → isDigit (Char.ofNat n) = false := by
    decide +kernel
  have hc := hall c.toNat (Source.toNat_of_nameStart h)
  rw [Char.ofNat_toNat] at hc
  exact hc h

theorem dropWidth_cut (base : List Char) {c : Char} (hc : isNameStart c = true)
    {digits : List Char} (width : IsWidth digits) :
    dropWidth (base ++ c :: digits) = base ++ [c] := by
  obtain ⟨hlength, hdigits⟩ := width
  have hreverse : (base ++ c :: digits).reverse = digits.reverse ++ c :: base.reverse := by simp
  have hall : ∀ d ∈ digits.reverse, isDigit d = true := fun d hd => hdigits d (by simpa using hd)
  have hnot : ¬ isDigit c = true := by simp [isDigit_of_nameStart hc]
  rw [dropWidth, hreverse, List.takeWhile_append_of_pos hall, List.dropWhile_append_of_pos hall,
    List.takeWhile_cons_of_neg hnot, List.dropWhile_cons_of_neg hnot, List.append_nil,
    List.length_reverse]
  change (if _ then _ else _) = _
  rw [if_pos ⟨hlength, hc⟩, List.reverse_cons, List.reverse_reverse]

theorem dropWidth_whole {name : List Char} (h : ∀ base c digits, isNameStart c = true →
    IsWidth digits → name ≠ base ++ c :: digits) : dropWidth name = name := by
  rw [dropWidth]
  split
  · next c rest hrest =>
    split
    · next hwidth =>
      obtain ⟨hlength, hc⟩ := hwidth
      refine absurd ?_ (h rest.reverse c (name.reverse.takeWhile isDigit).reverse hc ⟨?_, ?_⟩)
      · have hcut := congrArg List.reverse
          (List.takeWhile_append_dropWhile (p := isDigit) (l := name.reverse))
        rw [hrest, List.reverse_append, List.reverse_reverse, List.reverse_cons] at hcut
        rw [List.append_assoc] at hcut
        exact hcut.symm
      · rwa [List.length_reverse]
      · intro d hd
        exact List.mem_takeWhile_imp (List.mem_reverse.mp hd)
    · rfl
  · rfl

theorem withoutWidth_dropWidth (name : List Char) : WithoutWidth name (dropWidth name) := by
  by_cases h : ∃ base c digits, isNameStart c = true ∧ IsWidth digits ∧ name = base ++ c :: digits
  · obtain ⟨base, c, digits, hc, width, rfl⟩ := h
    rw [dropWidth_cut base hc width]
    exact .cut hc width
  · have hnone : ∀ base c digits, isNameStart c = true → IsWidth digits →
        name ≠ base ++ c :: digits := fun base c digits hc width heq =>
      h ⟨base, c, digits, hc, width, heq⟩
    rw [dropWidth_whole hnone]
    exact .whole hnone

theorem WithoutWidth.eq_dropWidth {name rest : List Char} (h : WithoutWidth name rest) :
    rest = dropWidth name := by
  cases h with
  | cut hc width => exact (dropWidth_cut _ hc width).symm
  | whole none => exact (dropWidth_whole none).symm

/-- A width is part of the last word. -/
theorem WithoutWidth.append {w rest : List Char} (h : WithoutWidth w rest) (hw : Source.IsName w)
    (before : List Char) : WithoutWidth (before ++ w) (before ++ rest) := by
  cases h with
  | @cut base digits c hc width =>
      rw [← List.append_assoc, ← List.append_assoc]
      exact .cut hc width
  | whole none =>
      apply WithoutWidth.whole
      intro base c digits hc width heq
      obtain ⟨first, others, rfl, hfirst, _⟩ := hw
      rcases List.append_eq_append_iff.mp heq with ⟨between, _, hword⟩ | ⟨between, _, hdigits⟩
      · exact none between c digits hc width hword
      · cases between with
        | nil => exact none [] c digits hc width hdigits.symm
        | cons d between =>
            -- The digits would hold the first character of the word.
            have hmem : first ∈ digits := by
              rw [(List.cons.inj hdigits).2]
              simp
            have hdigit := width.2 first hmem
            rw [isDigit_of_nameStart hfirst] at hdigit
            cases hdigit

theorem WithoutWidth.isName {w rest : List Char} (h : WithoutWidth w rest)
    (hw : Source.IsName w) : Source.IsName rest := by
  cases h with
  | whole none => exact hw
  | @cut base digits c hc width =>
      obtain ⟨first, others, hcut, hfirst, hothers⟩ := hw
      cases base with
      | nil => exact ⟨c, [], rfl, hc, by simp⟩
      | cons b base =>
          obtain ⟨rfl, rfl⟩ := List.cons.inj hcut
          refine ⟨b, base ++ [c], rfl, hfirst, ?_⟩
          intro d hd
          apply hothers
          rcases List.mem_append.mp hd with hd | hd
          · exact List.mem_append_left _ hd
          · rw [List.mem_singleton.mp hd]
            simp

end KernelLaunch.Signature
