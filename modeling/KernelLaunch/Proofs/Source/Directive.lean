import Mathlib.Data.List.TakeWhile
import KernelLaunch.Proofs.Source.Passage
import KernelLaunch.Proofs.Text.Lines
import KernelLaunch.Source.Directive

/-!
Removal of preprocessor directives, line by line. A directive is removed with all its
continuation lines; lines without a number sign stay.
-/

namespace KernelLaunch.Source

open Text

/-- The last visible character of a line is a backslash. -/
def EndsOpen (line : List Char) : Prop :=
  ∃ body blanks, line = body ++ '\\' :: blanks ∧ ∀ c ∈ blanks, isBlank c = true

theorem isContinued_iff (line : List Char) : isContinued line = true ↔ EndsOpen line := by
  have hhead : isContinued line = true ↔
      (line.reverse.dropWhile isBlank).head? = some '\\' := by
    simp [isContinued, trimRight, List.getLast?_reverse]
  rw [hhead]
  constructor
  · intro h
    obtain ⟨rest, hrest⟩ := List.head?_eq_some_iff.mp h
    refine ⟨rest.reverse, (line.reverse.takeWhile isBlank).reverse, ?_, ?_⟩
    · have hsplit := List.takeWhile_append_dropWhile (p := isBlank) (l := line.reverse)
      rw [hrest] at hsplit
      simpa using (congrArg List.reverse hsplit).symm
    · intro c hc
      exact List.mem_takeWhile_imp (List.mem_reverse.mp hc)
  · rintro ⟨body, blanks, rfl, hblanks⟩
    have hreverse : ∀ c ∈ blanks.reverse, isBlank c = true := fun c hc =>
      hblanks c (List.mem_reverse.mp hc)
    rw [List.reverse_append, List.reverse_cons, List.append_assoc,
      List.dropWhile_append_of_pos hreverse]
    rfl

/-- Each line but the last one is continued. -/
def Continued : List (List Char) → Prop
  | [] => False
  | [last] => ¬ EndsOpen last
  | line :: next :: rest => EndsOpen line ∧ Continued (next :: rest)

/-- A directive with the lines that continue it, which holds no quotes and opens
no comment. -/
structure Directive where
  lines : List (List Char)
  opens : ∃ indent body rest, lines = (indent ++ '#' :: body) :: rest ∧
    ∀ c ∈ indent, isBlank c = true
  unbroken : ∀ l ∈ lines, '\n' ∉ l
  continued : Continued lines
  unquoted : '"' ∉ unlines lines ∧ '\'' ∉ unlines lines
  noLine : ¬ ['/', '/'] <:+: unlines lines
  noBlock : ¬ ['/', '*'] <:+: unlines lines

theorem opensDirective_of_indent {indent body : List Char}
    (h : ∀ c ∈ indent, isBlank c = true) : opensDirective (indent ++ '#' :: body) = true := by
  rw [opensDirective, trimLeft, List.dropWhile_append_of_pos h]
  rfl

theorem opensDirective_of_not_mem {line : List Char} (h : '#' ∉ line) :
    opensDirective line = false := by
  rw [← Bool.not_eq_true]
  intro hopens
  have hhead : (trimLeft line).head? = some '#' := by simpa [opensDirective] using hopens
  exact h ((List.dropWhile_sublist isBlank).mem (List.mem_of_head? hhead))

theorem keptLines_subset (inside : Bool) (ls : List (List Char)) : keptLines inside ls ⊆ ls := by
  induction ls generalizing inside with
  | nil => exact List.Subset.refl []
  | cons line ls ih =>
      rw [keptLines]
      split
      · exact List.subset_cons_of_subset line (ih _)
      · exact List.cons_subset_cons line (ih false)

theorem keptLines_continued {ls : List (List Char)} (h : Continued ls)
    (rest : List (List Char)) : keptLines true (ls ++ rest) = keptLines false rest := by
  induction ls with
  | nil => exact absurd h id
  | cons line ls ih =>
      cases ls with
      | nil =>
          have hend : isContinued line = false := by
            rw [← Bool.not_eq_true, isContinued_iff]
            exact h
          simp [keptLines, hend]
      | cons next more =>
          obtain ⟨hline, hmore⟩ := h
          have hopen : isContinued line = true := (isContinued_iff line).mpr hline
          rw [List.cons_append, keptLines, hopen]
          exact ih hmore

theorem keptLines_plain {ls : List (List Char)} (h : ∀ l ∈ ls, '#' ∉ l)
    (rest : List (List Char)) : keptLines false (ls ++ rest) = ls ++ keptLines false rest := by
  induction ls with
  | nil => rfl
  | cons line ls ih =>
      have hline := opensDirective_of_not_mem (h line List.mem_cons_self)
      rw [List.cons_append, keptLines, hline, ih fun l hl => h l (List.mem_cons_of_mem line hl)]
      rfl

/-- Whether the next line continues a directive. -/
def insideAfter : (inside : Bool) → List (List Char) → Bool
  | inside, [] => inside
  | inside, line :: rest => insideAfter ((inside || opensDirective line) && isContinued line) rest

theorem keptLines_append (inside : Bool) (ls rest : List (List Char)) :
    keptLines inside (ls ++ rest) =
      keptLines inside ls ++ keptLines (insideAfter inside ls) rest := by
  induction ls generalizing inside with
  | nil => rfl
  | cons line ls ih =>
      rw [List.cons_append, keptLines, keptLines, insideAfter]
      cases inside || opensDirective line with
      | true => exact ih (isContinued line)
      | false => exact congrArg (line :: ·) (ih false)

/-- Whether the last line of a text goes away with a directive. -/
def endsInDirective (x : List Char) : Bool :=
  insideAfter false (lines x).dropLast || opensDirective ((lines x).getLastD [])

theorem opensDirective_append (line : List Char) {c : Char} (hvisible : isBlank c = false)
    (hc : c ≠ '#') (rest : List Char) :
    opensDirective (line ++ c :: rest) = opensDirective line := by
  induction line with
  | nil => simp [opensDirective, trimLeft, hvisible, hc]
  | cons d line ih =>
      unfold opensDirective trimLeft at ih ⊢
      rw [List.cons_append]
      by_cases hd : isBlank d = true
      · rw [List.dropWhile_cons_of_pos hd, List.dropWhile_cons_of_pos hd]
        exact ih
      · rw [List.dropWhile_cons_of_neg hd, List.dropWhile_cons_of_neg hd]
        rfl

/-- What stands within a line outside of directives stays, and does not matter to the lines
around it. -/
theorem stripDirectives_append {x : List Char} (hx : endsInDirective x = false) (y : List Char) :
    ∃ rest, ∀ c t, isBlank c = false → c ≠ '#' → '\n' ∉ c :: t →
      stripDirectives (x ++ (c :: t ++ y)) = stripDirectives x ++ (c :: t ++ rest) := by
  obtain hnil | ⟨before, last, hbefore⟩ := List.eq_nil_or_concat (lines x)
  · exact absurd hnil (splitAt_ne_nil _ x)
  obtain ⟨first, after, hafter⟩ := List.exists_cons_of_ne_nil (splitAt_ne_nil '\n' y)
  rw [List.concat_eq_append] at hbefore
  obtain ⟨hinside, hopens⟩ : insideAfter false before = false ∧ opensDirective last = false := by
    simpa [endsInDirective, hbefore] using hx
  refine ⟨unlines (first :: keptLines false after), fun c t hvisible hc hline => ?_⟩
  have halone : splitAt '\n' (c :: t) = [] ++ [c :: t] := splitAt_of_not_mem hline
  have hlines : lines (x ++ (c :: t ++ y)) = before ++ (last ++ (c :: t ++ first)) :: after :=
    splitAt_glue hbefore (splitAt_glue halone hafter)
  have hstays : opensDirective (last ++ (c :: t ++ first)) = false := by
    rw [List.cons_append, opensDirective_append last hvisible hc, hopens]
  have hkept : keptLines false (lines (x ++ (c :: t ++ y))) =
      keptLines false before ++ (last ++ (c :: t ++ first)) :: keptLines false after := by
    rw [hlines, keptLines_append, hinside, keptLines, hstays]
    rfl
  have hkeptBefore : keptLines false (lines x) = keptLines false before ++ [last] := by
    rw [hbefore, keptLines_append, hinside, keptLines, hopens]
    rfl
  have hfirst := joinWith_glue ['\n'] [] (keptLines false after) (c :: t) first
  rw [stripDirectives, stripDirectives, hkept, hkeptBefore, unlines, joinWith_glue]
  exact congrArg (unlines (keptLines false before ++ [last]) ++ ·) hfirst

/-- The lines of a text that are outside directives. -/
def kept (cs : List Char) : List (List Char) := keptLines false (lines cs)

theorem kept_plain {x : List Char} (h : '#' ∉ x) : kept x = lines x := by
  have hlines : ∀ l ∈ lines x, '#' ∉ l := fun l hl hc => h (mem_of_mem_splitAt hl hc)
  have hkept := keptLines_plain hlines []
  rw [List.append_nil] at hkept
  exact hkept.trans (List.append_nil _)

theorem kept_plain_line {x : List Char} (h : '#' ∉ x) (y : List Char) :
    kept (x ++ '\n' :: y) = lines x ++ kept y := by
  have hlines : ∀ l ∈ lines x, '#' ∉ l := fun l hl hc => h (mem_of_mem_splitAt hl hc)
  rw [kept, lines_append, keptLines_plain hlines, kept]

namespace Directive

def text (d : Directive) : List Char := unlines d.lines

theorem lines_ne_nil (d : Directive) : d.lines ≠ [] := by
  obtain ⟨indent, body, rest, heq, _⟩ := d.opens
  simp [heq]

theorem lines_text (d : Directive) : Text.lines d.text = d.lines :=
  lines_unlines d.lines_ne_nil d.unbroken

theorem keptLines_lines (d : Directive) (rest : List (List Char)) :
    keptLines false (d.lines ++ rest) = keptLines false rest := by
  obtain ⟨indent, body, more, heq, hindent⟩ := d.opens
  have hopens : opensDirective (indent ++ '#' :: body) = true := opensDirective_of_indent hindent
  have hcontinued := keptLines_continued d.continued rest
  rw [heq, List.cons_append, keptLines] at hcontinued ⊢
  simpa [hopens] using hcontinued

/-- A directive that a newline ends leaves nothing, not even its newline. -/
theorem kept_closed (d : Directive) (y : List Char) : kept (d.text ++ '\n' :: y) = kept y := by
  rw [kept, lines_append, d.lines_text, d.keptLines_lines, kept]

theorem kept_open (d : Directive) : kept d.text = [] := by
  have hkept := d.keptLines_lines []
  rw [List.append_nil] at hkept
  rw [kept, d.lines_text, hkept]
  rfl

theorem strip_open (d : Directive) : stripFrom .code d.text = d.text := by
  have hstrip := strip_free d.text [] d.unquoted d.noLine d.noBlock fun _ => rfl
  rwa [List.append_nil, show stripFrom .code [] = [] from rfl, List.append_nil] at hstrip

/-- A pair of characters without a newline that is in a text with a newline at
its end is in the text. -/
private theorem pair_infix_snoc {a b : Char} {t : List Char} (hb : b ≠ '\n')
    (h : [a, b] <:+: t ++ ['\n']) : [a, b] <:+: t := by
  obtain ⟨before, after, heq⟩ := h
  rcases List.eq_nil_or_concat after with rfl | ⟨rest, last, rfl⟩
  · have hlast := congrArg List.getLast? heq
    simp at hlast
    exact absurd hlast hb
  · refine ⟨before, rest, ?_⟩
    rw [List.concat_eq_append, ← List.append_assoc] at heq
    exact (List.append_inj' heq rfl).1

theorem strip_closed (d : Directive) (rest : List Char) :
    stripFrom .code (d.text ++ '\n' :: rest) = d.text ++ '\n' :: stripFrom .code rest := by
  have hquotes : '"' ∉ d.text ++ ['\n'] ∧ '\'' ∉ d.text ++ ['\n'] := by
    refine ⟨?_, ?_⟩ <;> simp only [List.mem_append, List.mem_singleton, not_or]
    · exact ⟨d.unquoted.1, by decide⟩
    · exact ⟨d.unquoted.2, by decide⟩
  have hstrip := strip_free (d.text ++ ['\n']) rest hquotes
    (fun h => d.noLine (pair_infix_snoc (by decide) h))
    (fun h => d.noBlock (pair_infix_snoc (by decide) h)) (by simp)
  simpa using hstrip

end Directive

end KernelLaunch.Source
