import KernelLaunch.Text.Lines

/-!
Cutting texts at a separator, and at newlines in particular. A separator cuts a
text into what is left of it and what is right of it, each cut on its own.
-/

namespace KernelLaunch.Text

variable {sep : Char}

theorem splitAt_cons_ne {c : Char} (h : c ≠ sep) (cs part : List Char)
    (more : List (List Char)) (hcs : splitAt sep cs = part :: more) :
    splitAt sep (c :: cs) = (c :: part) :: more := by
  rw [splitAt, if_neg h, hcs]

theorem joinWith_cons (sep part : List Char) {rest : List (List Char)} (h : rest ≠ []) :
    joinWith sep (part :: rest) = part ++ sep ++ joinWith sep rest := by
  cases rest with
  | nil => exact absurd rfl h
  | cons next rest => rfl

theorem infix_joinWith {part : List Char} {parts : List (List Char)} (h : part ∈ parts)
    (sep : List Char) : part <:+: joinWith sep parts := by
  induction parts with
  | nil => cases h
  | cons first rest ih =>
      by_cases hne : rest = []
      · subst hne
        rw [List.mem_singleton.mp h]
        exact List.infix_rfl
      · rw [joinWith_cons _ _ hne, List.append_assoc]
        rcases List.mem_cons.mp h with rfl | h
        · exact (List.prefix_append _ _).isInfix
        · exact ((ih h).trans (List.suffix_append _ _).isInfix).trans
            (List.suffix_append _ _).isInfix

theorem mem_joinWith {c : Char} {part : List Char} {parts : List (List Char)}
    (hpart : part ∈ parts) (hc : c ∈ part) (sep : List Char) : c ∈ joinWith sep parts :=
  (infix_joinWith hpart sep).subset hc

theorem splitAt_of_not_mem {x : List Char} (h : sep ∉ x) : splitAt sep x = [x] := by
  induction x with
  | nil => rfl
  | cons c x ih =>
      have hc : c ≠ sep := fun heq => h (heq ▸ List.mem_cons_self)
      exact splitAt_cons_ne hc _ _ _ (ih fun hmem => h (List.mem_cons_of_mem c hmem))

/-- Of two texts the last part of the first one goes on with the first part of the second. -/
theorem splitAt_glue {x y last first : List Char} {before after : List (List Char)}
    (hx : splitAt sep x = before ++ [last]) (hy : splitAt sep y = first :: after) :
    splitAt sep (x ++ y) = before ++ (last ++ first) :: after := by
  induction x generalizing before last with
  | nil =>
      cases before with
      | nil =>
          cases hx
          exact hy
      | cons part before => simp [splitAt] at hx
  | cons c x ih =>
      obtain hnil | ⟨parts, part, hparts⟩ := List.eq_nil_or_concat (splitAt sep x)
      · exact absurd hnil (splitAt_ne_nil sep x)
      · rw [List.concat_eq_append] at hparts
        have hrest := ih hparts
        by_cases hc : c = sep
        · rw [splitAt, if_pos hc, hparts, ← List.cons_append] at hx
          obtain ⟨rfl, heq⟩ := List.append_inj' hx rfl
          cases heq
          rw [List.cons_append, splitAt, if_pos hc, hrest, List.cons_append]
        · cases parts with
          | nil =>
              rw [splitAt_cons_ne hc _ _ _ hparts] at hx
              change [] ++ [c :: part] = before ++ [last] at hx
              obtain ⟨rfl, heq⟩ := List.append_inj' hx rfl
              cases heq
              exact splitAt_cons_ne hc _ _ _ hrest
          | cons next parts =>
              rw [splitAt_cons_ne hc _ _ _ hparts] at hx
              change (c :: next) :: parts ++ [part] = before ++ [last] at hx
              obtain ⟨rfl, heq⟩ := List.append_inj' hx rfl
              cases heq
              exact splitAt_cons_ne hc _ _ _ hrest

theorem splitAt_append (x y : List Char) :
    splitAt sep (x ++ sep :: y) = splitAt sep x ++ splitAt sep y := by
  obtain hnil | ⟨before, last, hx⟩ := List.eq_nil_or_concat (splitAt sep x)
  · exact absurd hnil (splitAt_ne_nil sep x)
  · rw [List.concat_eq_append] at hx
    have hy : splitAt sep (sep :: y) = [] :: splitAt sep y := by rw [splitAt, if_pos rfl]
    rw [splitAt_glue hx hy, hx]
    simp

/-- A text is put together from two that are cut within a part. -/
theorem joinWith_glue (sep : List Char) (before after : List (List Char)) (x y : List Char) :
    joinWith sep (before ++ (x ++ y) :: after) =
      joinWith sep (before ++ [x]) ++ joinWith sep (y :: after) := by
  induction before with
  | nil => cases after <;> simp [joinWith]
  | cons part before ih =>
      rw [List.cons_append, List.cons_append, joinWith_cons _ _ (by simp),
        joinWith_cons _ _ (by simp), ih]
      simp only [List.append_assoc]

theorem mem_of_mem_splitAt {x part : List Char} {c : Char} (hpart : part ∈ splitAt sep x)
    (hc : c ∈ part) : c ∈ x := by
  induction x generalizing part with
  | nil =>
      rw [splitAt, List.mem_singleton] at hpart
      rw [hpart] at hc
      cases hc
  | cons d x ih =>
      by_cases hd : d = sep
      · rw [splitAt, if_pos hd] at hpart
        rcases List.mem_cons.mp hpart with rfl | hpart
        · cases hc
        · exact List.mem_cons_of_mem d (ih hpart hc)
      · cases hx : splitAt sep x with
        | nil => exact absurd hx (splitAt_ne_nil sep x)
        | cons first more =>
            rw [splitAt_cons_ne hd _ _ _ hx] at hpart
            rw [hx] at ih
            rcases List.mem_cons.mp hpart with rfl | hpart
            · rcases List.mem_cons.mp hc with rfl | hc
              · exact List.mem_cons_self
              · exact List.mem_cons_of_mem d (ih List.mem_cons_self hc)
            · exact List.mem_cons_of_mem d (ih (List.mem_cons_of_mem first hpart) hc)

/-- No part holds the separator. -/
theorem not_mem_of_mem_splitAt {x part : List Char} (hpart : part ∈ splitAt sep x) :
    sep ∉ part := by
  induction x generalizing part with
  | nil =>
      rw [List.mem_singleton.mp hpart]
      exact List.not_mem_nil
  | cons d x ih =>
      by_cases hd : d = sep
      · rw [splitAt, if_pos hd] at hpart
        rcases List.mem_cons.mp hpart with rfl | hpart
        · exact List.not_mem_nil
        · exact ih hpart
      · obtain ⟨first, more, hx⟩ := List.exists_cons_of_ne_nil (splitAt_ne_nil sep x)
        rw [splitAt_cons_ne hd _ _ _ hx] at hpart
        rw [hx] at ih
        rcases List.mem_cons.mp hpart with rfl | hpart
        · have hfirst := ih List.mem_cons_self
          rw [List.mem_cons, not_or]
          exact ⟨fun heq => hd heq.symm, hfirst⟩
        · exact ih (List.mem_cons_of_mem first hpart)

theorem unlines_lines (cs : List Char) : unlines (lines cs) = cs := joinWith_splitAt '\n' cs

theorem unlines_cons {ls : List (List Char)} (h : ls ≠ []) (l : List Char) :
    unlines (l :: ls) = l ++ '\n' :: unlines ls := by
  rw [unlines, joinWith_cons _ _ h, List.append_assoc]
  rfl

theorem lines_append (x y : List Char) : lines (x ++ '\n' :: y) = lines x ++ lines y :=
  splitAt_append x y

/-- Lines that are put together are cut into the same lines again. -/
theorem lines_unlines {ls : List (List Char)} (hne : ls ≠ []) (h : ∀ l ∈ ls, '\n' ∉ l) :
    lines (unlines ls) = ls := by
  induction ls with
  | nil => exact absurd rfl hne
  | cons l ls ih =>
      have hl := h l List.mem_cons_self
      cases ls with
      | nil => exact splitAt_of_not_mem hl
      | cons next rest =>
          rw [unlines_cons (List.cons_ne_nil next rest), lines_append,
            ih (by simp) fun m hm => h m (List.mem_cons_of_mem l hm)]
          exact congrArg (· ++ _) (splitAt_of_not_mem hl)

theorem unlines_snoc_nil {ls : List (List Char)} (h : ls ≠ []) :
    unlines (ls ++ [[]]) = unlines ls ++ ['\n'] := by
  induction ls with
  | nil => exact absurd rfl h
  | cons l ls ih =>
      cases ls with
      | nil => simp [unlines, joinWith]
      | cons next rest =>
          rw [List.cons_append, unlines_cons (by simp), ih (by simp),
            unlines_cons (List.cons_ne_nil next rest), List.append_assoc, List.cons_append]

end KernelLaunch.Text
