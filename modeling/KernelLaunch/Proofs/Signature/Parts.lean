import Mathlib.Algebra.BigOperators.Group.List.Basic
import Mathlib.Algebra.Ring.Int.Defs
import KernelLaunch.Proofs.Source.Header
import KernelLaunch.Proofs.Text.Words
import KernelLaunch.Signature.Parts

/-!
How a parameter list is cut. A text in which as many brackets are closed as are opened is cut
in the same way wherever it stands, and well nested brackets hide the commas between them.
-/

namespace KernelLaunch.Signature

open Source Text

/-- How many brackets a text leaves open. -/
def balance (cs : List Char) : Int := (cs.map bracketStep).sum

@[simp] theorem balance_nil : balance [] = 0 := rfl

@[simp] theorem balance_cons (c : Char) (cs : List Char) :
    balance (c :: cs) = bracketStep c + balance cs := by
  simp [balance]

@[simp] theorem balance_append (x y : List Char) : balance (x ++ y) = balance x + balance y := by
  simp [balance]

@[simp] theorem bracketStep_comma : bracketStep ',' = 0 := by decide

theorem bracketStep_plain {c : Char} (h : c ∉ ['(', ')', '[', ']']) : bracketStep c = 0 := by
  simp only [List.mem_cons, List.not_mem_nil, or_false, not_or] at h
  simp [bracketStep, h]

theorem balance_nested {e : List Char} (h : WellNested e) : balance e = 0 := by
  induction h with
  | nil => rfl
  | char plain _ ih => simp [bracketStep_plain plain, ih]
  | round _ _ ih ih' => simp [bracketStep, ih, ih']
  | square _ _ ih ih' => simp [bracketStep, ih, ih']

theorem balance_flat {x : List Char} (h : ∀ c ∈ x, bracketStep c = 0) : balance x = 0 := by
  apply List.sum_eq_zero
  intro step hstep
  obtain ⟨c, hc, rfl⟩ := List.mem_map.mp hstep
  exact h c hc

/-- Blanks are neither brackets nor commas. -/
theorem flat_of_blank {c : Char} (h : isBlank c = true) : bracketStep c = 0 ∧ c ≠ ',' := by
  have hnot : c ∉ ['(', ')', '[', ']', ','] := by
    intro hmem
    have hvisible : ∀ b ∈ ['(', ')', '[', ']', ','], isBlank b = false := by
      simp [isBlank]
    rw [hvisible c hmem] at h
    cases h
  simp only [List.mem_cons, List.not_mem_nil, or_false, not_or] at hnot
  exact ⟨bracketStep_plain (by simp [hnot]), hnot.2.2.2.2⟩

section Cutting

/-- The first part goes on from a text before it. -/
def extendFirst (x : List Char) : List (List Char) → List (List Char)
  | [] => [x]
  | part :: more => (x ++ part) :: more

theorem extendFirst_append (x y : List Char) (parts : List (List Char)) :
    extendFirst x (extendFirst y parts) = extendFirst (x ++ y) parts := by
  cases parts <;> simp [extendFirst]

theorem extendFirst_ne_nil (x : List Char) (parts : List (List Char)) :
    extendFirst x parts ≠ [] := by
  cases parts <;> simp [extendFirst]

theorem rawParts_comma (rest : List Char) :
    rawParts 0 (',' :: rest) = [] :: rawParts 0 rest := rfl

theorem rawParts_other {c : Char} {depth : Int}
    (h : ¬ (c = ',' ∧ depth + bracketStep c = 0)) (rest : List Char) :
    rawParts depth (c :: rest) = extendFirst [c] (rawParts (depth + bracketStep c) rest) := by
  rw [rawParts]
  simp only [h, if_false]
  split <;> next heq => rw [heq]; rfl

theorem rawParts_ne_nil (depth : Int) (cs : List Char) : rawParts depth cs ≠ [] := by
  cases cs with
  | nil => simp [rawParts]
  | cons c rest =>
      by_cases hcut : c = ',' ∧ depth + bracketStep c = 0
      · rw [rawParts, if_pos hcut]
        exact List.cons_ne_nil _ _
      · rw [rawParts_other hcut]
        exact extendFirst_ne_nil _ _

/-- A comma cuts where all brackets before it are closed. -/
theorem rawParts_append {x : List Char} {depth : Int} (h : depth + balance x = 0)
    (y : List Char) :
    rawParts depth (x ++ ',' :: y) = rawParts depth x ++ rawParts 0 y := by
  induction x generalizing depth with
  | nil =>
      have hdepth : depth = 0 := by simpa using h
      rw [hdepth]
      rfl
  | cons c x ih =>
      by_cases hcut : c = ',' ∧ depth + bracketStep c = 0
      · obtain ⟨rfl, hstep⟩ := hcut
        rw [bracketStep_comma, add_zero] at hstep
        subst hstep
        have hrest : 0 + balance x = 0 := by simpa using h
        rw [List.cons_append, rawParts_comma, rawParts_comma, ih hrest, List.cons_append]
      · have hrest : depth + bracketStep c + balance x = 0 := by
          rw [balance_cons] at h
          omega
        obtain ⟨part, more, hparts⟩ :=
          List.exists_cons_of_ne_nil (rawParts_ne_nil (depth + bracketStep c) x)
        rw [List.cons_append, rawParts_other hcut, rawParts_other hcut, ih hrest, hparts]
        rfl

/-- Texts whose brackets are all closed are cut one by one. -/
theorem rawParts_joinWith {texts : List (List Char)} (hne : texts ≠ [])
    (h : ∀ x ∈ texts, balance x = 0) :
    rawParts 0 (joinWith [','] texts) = texts.flatMap (rawParts 0) := by
  induction texts with
  | nil => exact absurd rfl hne
  | cons x texts ih =>
      have hx := h x List.mem_cons_self
      cases texts with
      | nil => simp [joinWith]
      | cons next rest =>
          have hrest := ih (List.cons_ne_nil _ _) fun y hy => h y (List.mem_cons_of_mem x hy)
          rw [joinWith_cons _ _ (List.cons_ne_nil next rest), List.append_assoc,
            List.singleton_append, rawParts_append (by rw [hx]; rfl), hrest]
          rfl

/-- A text without a comma where all brackets before it are closed is not cut. -/
theorem rawParts_uncut {x : List Char} (depth : Int)
    (h : ∀ u v, x = u ++ ',' :: v → depth + balance u ≠ 0) (rest : List Char) :
    rawParts depth (x ++ rest) = extendFirst x (rawParts (depth + balance x) rest) := by
  induction x generalizing depth with
  | nil =>
      obtain ⟨part, more, hparts⟩ := List.exists_cons_of_ne_nil (rawParts_ne_nil depth rest)
      simp [hparts, extendFirst]
  | cons c x ih =>
      have hkeep : ¬ (c = ',' ∧ depth + bracketStep c = 0) := by
        rintro ⟨rfl, hzero⟩
        exact h [] x rfl (by simpa using hzero)
      have hrest : ∀ u v, x = u ++ ',' :: v → depth + bracketStep c + balance u ≠ 0 := by
        rintro u v rfl hzero
        exact h (c :: u) v rfl (by rw [balance_cons]; omega)
      rw [List.cons_append, rawParts_other hkeep, ih _ hrest, extendFirst_append,
        List.singleton_append, balance_cons, add_assoc]

theorem rawParts_flat {x : List Char} (h : ∀ c ∈ x, bracketStep c = 0 ∧ c ≠ ',') (depth : Int)
    (rest : List Char) : rawParts depth (x ++ rest) = extendFirst x (rawParts depth rest) := by
  have hcomma : ∀ u v, x = u ++ ',' :: v → depth + balance u ≠ 0 := by
    rintro u v rfl
    exact absurd rfl (h ',' (by simp)).2
  rw [rawParts_uncut depth hcomma, balance_flat fun c hc => (h c hc).1, add_zero]

/-- Brackets around a text that is not cut; `depth` is how many are open before them. -/
theorem rawParts_pair {a b : Char} (ha : bracketStep a = 1) (hb : bracketStep b = -1)
    {inner : List Char} {depth : Int} (hinner : ∀ rest, rawParts (depth + 1) (inner ++ rest) =
      extendFirst inner (rawParts (depth + 1) rest)) (rest : List Char) :
    rawParts depth (a :: (inner ++ b :: rest)) =
      extendFirst (a :: (inner ++ [b])) (rawParts depth rest) := by
  have hopen : ¬ (a = ',' ∧ depth + bracketStep a = 0) := by
    rintro ⟨rfl, _⟩
    cases ha
  have hclose : ¬ (b = ',' ∧ depth + 1 + bracketStep b = 0) := by
    rintro ⟨rfl, _⟩
    cases hb
  rw [rawParts_other hopen, ha, hinner, rawParts_other hclose, hb, add_neg_cancel_right,
    extendFirst_append, extendFirst_append]
  rfl

/-- Between brackets nothing is cut. -/
theorem rawParts_nested {e : List Char} (h : WellNested e) {depth : Int} (hdepth : 0 < depth)
    (rest : List Char) : rawParts depth (e ++ rest) = extendFirst e (rawParts depth rest) := by
  induction h generalizing depth rest with
  | nil => exact rawParts_flat (x := []) (by simp) depth rest
  | @char c s plain _ ih =>
      have hkeep : ¬ (c = ',' ∧ depth + bracketStep c = 0) := by
        rintro ⟨_, hzero⟩
        rw [bracketStep_plain plain] at hzero
        omega
      rw [List.cons_append, rawParts_other hkeep, bracketStep_plain plain, add_zero,
        ih hdepth, extendFirst_append, List.singleton_append]
  | @round inner s _ _ ih ih' =>
      rw [List.cons_append, List.append_assoc, List.cons_append,
        rawParts_pair rfl rfl (ih (by omega)), ih' hdepth, extendFirst_append]
      simp
  | @square inner s _ _ ih ih' =>
      rw [List.cons_append, List.append_assoc, List.cons_append,
        rawParts_pair rfl rfl (ih (by omega)), ih' hdepth, extendFirst_append]
      simp

end Cutting

/-- The parts that texts are cut into, each text for itself. -/
def partsOf (texts : List (List Char)) : List String :=
  (texts.flatMap (rawParts 0)).map fun part => String.ofList (collapse part)

/-- A list with a bracket in it declares something. -/
theorem parts_of_bracket {cs part : List Char} (hpart : part ∈ rawParts 0 cs)
    (hbracket : '[' ∈ part) :
    parts (String.ofList cs) = (rawParts 0 cs).map fun part => String.ofList (collapse part) := by
  have hmem : collapse part ∈ (rawParts 0 cs).map collapse := List.mem_map_of_mem hpart
  have hvisible : '[' ∈ collapse part := mem_collapse (by decide) hbracket
  have hdeclares : ¬ ((rawParts 0 cs).map collapse = [[]] ∨
      (rawParts 0 cs).map collapse = ["void".toList]) := by
    rintro (heq | heq)
    · rw [heq, List.mem_singleton] at hmem
      rw [hmem] at hvisible
      cases hvisible
    · rw [heq, List.mem_singleton] at hmem
      rw [hmem] at hvisible
      revert hvisible
      decide
  rw [parts, String.toList_ofList]
  simp only [hdeclares, if_false, List.map_map]
  rfl

/-- A part with a bracket in it is one of the parts of every list in which it stands between
texts that close all their brackets. -/
theorem parts_around {part : List Char} (hlevel : balance part = 0)
    (hwhole : rawParts 0 part = [part]) (hbracket : '[' ∈ part)
    {before after : List (List Char)} (hothers : ∀ x ∈ before ++ after, balance x = 0) :
    parts (String.ofList (joinWith [','] (before ++ part :: after))) =
      partsOf before ++ String.ofList (collapse part) :: partsOf after := by
  have hbalance : ∀ x ∈ before ++ part :: after, balance x = 0 := by
    intro x hx
    rcases List.mem_append.mp hx with hx | hx
    · exact hothers x (List.mem_append_left after hx)
    · rcases List.mem_cons.mp hx with rfl | hx
      · exact hlevel
      · exact hothers x (List.mem_append_right before hx)
  have hcut : rawParts 0 (joinWith [','] (before ++ part :: after)) =
      before.flatMap (rawParts 0) ++ part :: after.flatMap (rawParts 0) := by
    rw [rawParts_joinWith (by simp) hbalance, List.flatMap_append, List.flatMap_cons, hwhole]
    rfl
  have hpart : part ∈ rawParts 0 (joinWith [','] (before ++ part :: after)) := by
    simp [hcut]
  rw [parts_of_bracket hpart hbracket, hcut, List.map_append, List.map_cons, partsOf, partsOf]

end KernelLaunch.Signature
