import KernelLaunch.Proofs.Source.Directive

/-!
Directive removal specified by line numbers: exactly the lines that start a directive, and
those that a directive reaches through lines that all end in a backslash, are removed.
Removal is idempotent, and a text splits into two that are treated separately unless a
directive continues from the one into the other.
-/

namespace KernelLaunch.Source

open Text

/-- The first visible character of a line is a number sign. -/
def StartsDirective (line : List Char) : Prop :=
  ∃ indent body, line = indent ++ '#' :: body ∧ ∀ c ∈ indent, isBlank c = true

theorem opensDirective_iff (line : List Char) :
    opensDirective line = true ↔ StartsDirective line := by
  constructor
  · intro h
    have hhead : (line.dropWhile isBlank).head? = some '#' := eq_of_beq h
    obtain ⟨body, hbody⟩ := List.head?_eq_some_iff.mp hhead
    refine ⟨line.takeWhile isBlank, body, ?_, fun c hc => List.mem_takeWhile_imp hc⟩
    rw [← hbody, List.takeWhile_append_dropWhile]
  · rintro ⟨indent, body, rfl, hindent⟩
    exact opensDirective_of_indent hindent

instance (line : List Char) : Decidable (StartsDirective line) :=
  decidable_of_iff _ (opensDirective_iff line)

instance (line : List Char) : Decidable (EndsOpen line) :=
  decidable_of_iff _ (isContinued_iff line)

/-- A directive starts in one line and goes on up to another one: every line before that one
ends in a backslash. -/
def Spans (ls : List (List Char)) (start stop : Nat) : Prop :=
  (∃ line ∈ ls[start]?, StartsDirective line) ∧
    ∀ i < stop, start ≤ i → ∃ line ∈ ls[i]?, EndsOpen line

/-- The line of a number starts a directive or is reached by one. -/
def InDirective (ls : List (List Char)) (i : Nat) : Prop := ∃ start < i + 1, Spans ls start i

/-- The last line is one of a directive, and is continued. -/
def StaysOpen (ls : List (List Char)) : Prop := ∃ start < ls.length, Spans ls start ls.length

instance (ls : List (List Char)) (start stop : Nat) : Decidable (Spans ls start stop) :=
  inferInstanceAs (Decidable (_ ∧ _))

instance (ls : List (List Char)) (i : Nat) : Decidable (InDirective ls i) :=
  inferInstanceAs (Decidable (∃ start < i + 1, Spans ls start i))

section Places

variable {ls : List (List Char)} {line : List Char}

/-- How far a directive goes does not depend on what follows. -/
theorem spans_append {start stop : Nat} (hstart : start < ls.length) (hstop : stop ≤ ls.length)
    (more : List (List Char)) : Spans (ls ++ more) start stop ↔ Spans ls start stop := by
  have hopens : (∀ i < stop, start ≤ i → ∃ line ∈ (ls ++ more)[i]?, EndsOpen line) ↔
      ∀ i < stop, start ≤ i → ∃ line ∈ ls[i]?, EndsOpen line := by
    refine forall₂_congr fun i hi => ?_
    rw [List.getElem?_append_left (Nat.lt_of_lt_of_le hi hstop)]
  unfold Spans
  rw [hopens, List.getElem?_append_left hstart]

theorem inDirective_append {i : Nat} (hi : i < ls.length) (more : List (List Char)) :
    InDirective (ls ++ more) i ↔ InDirective ls i := by
  unfold InDirective
  refine exists_congr fun start => and_congr_right fun hstart => ?_
  exact spans_append (Nat.lt_of_le_of_lt (Nat.le_of_lt_succ hstart) hi) (Nat.le_of_lt hi) more

/-- A line behind others starts a directive, or one stays open before it. -/
theorem inDirective_snoc : InDirective (ls ++ [line]) ls.length ↔
    StartsDirective line ∨ StaysOpen ls := by
  constructor
  · rintro ⟨start, hstart, hspans⟩
    rcases Nat.lt_succ_iff_lt_or_eq.mp hstart with hlt | rfl
    · exact .inr ⟨start, hlt, (spans_append hlt (Nat.le_refl _) [line]).mp hspans⟩
    · obtain ⟨first, hfirst, hstarts⟩ := hspans.1
      rw [List.getElem?_concat_length, Option.mem_some_iff] at hfirst
      exact .inl (hfirst ▸ hstarts)
  · rintro (hstarts | ⟨start, hstart, hspans⟩)
    · refine ⟨ls.length, Nat.lt_succ_self _, ⟨line, List.getElem?_concat_length, hstarts⟩, ?_⟩
      intro i hi hle
      exact absurd hi (Nat.not_lt.mpr hle)
    · exact ⟨start, Nat.lt_succ_of_lt hstart,
        (spans_append hstart (Nat.le_refl _) [line]).mpr hspans⟩

/-- A directive stays open if its last line is continued. -/
theorem staysOpen_snoc : StaysOpen (ls ++ [line]) ↔
    (StartsDirective line ∨ StaysOpen ls) ∧ EndsOpen line := by
  have hlength : (ls ++ [line]).length = ls.length + 1 := List.length_append
  rw [← inDirective_snoc]
  unfold StaysOpen InDirective
  rw [hlength]
  constructor
  · rintro ⟨start, hstart, hfirst, hopen⟩
    refine ⟨⟨start, hstart, hfirst, fun i hi => hopen i (Nat.lt_succ_of_lt hi)⟩, ?_⟩
    obtain ⟨last, hlast, hends⟩ := hopen ls.length (Nat.lt_succ_self _) (Nat.le_of_lt_succ hstart)
    rw [List.getElem?_concat_length, Option.mem_some_iff] at hlast
    exact hlast ▸ hends
  · rintro ⟨⟨start, hstart, hfirst, hopen⟩, hends⟩
    refine ⟨start, hstart, hfirst, fun i hi hle => ?_⟩
    rcases Nat.lt_succ_iff_lt_or_eq.mp hi with hlt | rfl
    · exact hopen i hlt hle
    · exact ⟨line, List.getElem?_concat_length, hends⟩

theorem insideAfter_append (inside : Bool) (ls more : List (List Char)) :
    insideAfter inside (ls ++ more) = insideAfter (insideAfter inside ls) more := by
  induction ls generalizing inside with
  | nil => rfl
  | cons line ls ih => exact ih _

/-- The flag that is carried from line to line says whether a directive stays open. -/
theorem insideAfter_iff (ls : List (List Char)) :
    insideAfter false ls = true ↔ StaysOpen ls := by
  induction ls using List.reverseRecOn with
  | nil => simp [insideAfter, StaysOpen]
  | append_singleton ls line ih =>
      rw [insideAfter_append, staysOpen_snoc, ← ih, ← opensDirective_iff, ← isContinued_iff]
      simp [insideAfter, or_comm]

/-- The lines at places outside of directives. -/
def linesOutside (ls : List (List Char)) : List (List Char) :=
  (ls.zipIdx.filter fun place => ¬ InDirective ls place.2).map Prod.fst

theorem linesOutside_snoc (ls : List (List Char)) (line : List Char) :
    linesOutside (ls ++ [line]) =
      linesOutside ls ++ if InDirective (ls ++ [line]) ls.length then [] else [line] := by
  have hbefore : ls.zipIdx.filter (fun place => ¬ InDirective (ls ++ [line]) place.2) =
      ls.zipIdx.filter fun place => ¬ InDirective ls place.2 := by
    refine List.filter_congr fun place hplace => ?_
    have hlt : place.2 < ls.length := by simpa using (List.mem_zipIdx hplace).2.1
    exact decide_eq_decide.mpr (not_congr (inDirective_append hlt [line]))
  unfold linesOutside
  rw [List.zipIdx_append, List.filter_append, hbefore, List.map_append]
  by_cases hin : InDirective (ls ++ [line]) ls.length <;> simp [hin]

/-- The lines that are kept are those outside of directives. -/
theorem keptLines_eq (ls : List (List Char)) : keptLines false ls = linesOutside ls := by
  induction ls using List.reverseRecOn with
  | nil => rfl
  | append_singleton ls line ih =>
      rw [keptLines_append, linesOutside_snoc, ih]
      have hplace : (insideAfter false ls || opensDirective line) = true ↔
          InDirective (ls ++ [line]) ls.length := by
        rw [Bool.or_eq_true, insideAfter_iff, opensDirective_iff, inDirective_snoc, or_comm]
      simp only [keptLines, hplace]

theorem startsNo_of_mem_keptLines (inside : Bool) (ls : List (List Char)) :
    ∀ line ∈ keptLines inside ls, ¬ StartsDirective line := by
  induction ls generalizing inside with
  | nil => exact List.forall_mem_nil _
  | cons line ls ih =>
      rw [keptLines]
      split
      · exact ih _
      · next hplace =>
        refine List.forall_mem_cons.mpr ⟨fun hstarts => hplace ?_, ih false⟩
        rw [(opensDirective_iff line).mpr hstarts, Bool.or_true]

/-- Lines that start no directive are all kept. -/
theorem keptLines_of_startsNo {ls : List (List Char)} (h : ∀ line ∈ ls, ¬ StartsDirective line) :
    keptLines false ls = ls := by
  induction ls with
  | nil => rfl
  | cons line ls ih =>
      obtain ⟨hline, hrest⟩ := List.forall_mem_cons.mp h
      rw [← opensDirective_iff, Bool.not_eq_true] at hline
      rw [keptLines, hline, ih hrest]
      rfl

end Places

section Texts

/-- What is left of a text has the lines that are kept, if there are any. -/
theorem lines_stripDirectives {cs : List Char} (h : kept cs ≠ []) :
    lines (stripDirectives cs) = kept cs :=
  lines_unlines h fun _ hline => not_mem_of_mem_splitAt (keptLines_subset false (lines cs) hline)

theorem stripDirectives_again (cs : List Char) :
    stripDirectives (stripDirectives cs) = stripDirectives cs := by
  by_cases hnone : kept cs = []
  · have hempty : stripDirectives cs = [] := congrArg unlines hnone
    rw [hempty]
    rfl
  · have hkept : keptLines false (kept cs) = kept cs :=
      keptLines_of_startsNo (startsNo_of_mem_keptLines false (lines cs))
    rw [stripDirectives, lines_stripDirectives hnone, hkept]
    rfl

theorem stripDirectives_lines {a : List Char} (h : ¬ StaysOpen (lines a)) (b : List Char) :
    stripDirectives (a ++ '\n' :: b) = unlines (kept a ++ kept b) := by
  rw [← insideAfter_iff, Bool.not_eq_true] at h
  rw [stripDirectives, lines_append, keptLines_append, h]
  rfl

end Texts

/-- The guarantees of directive removal. -/
structure Undirected (cs out : List Char) : Prop where
  /-- Exactly the lines of directives are missing. -/
  outside : kept cs = linesOutside (lines cs)
  joined : out = unlines (kept cs)
  relined : kept cs ≠ [] → lines out = kept cs
  startsNo : ∀ line ∈ kept cs, ¬ StartsDirective line
  /-- Removal is idempotent. -/
  again : stripDirectives out = out
  /-- Removal distributes over concatenation where no directive is continued. -/
  followed : ¬ StaysOpen (lines cs) → ∀ rest,
    stripDirectives (cs ++ '\n' :: rest) = unlines (kept cs ++ kept rest)

/-- Directive removal deletes exactly the lines that start a directive or continue one. -/
theorem stripDirectives_undirected (cs : List Char) : Undirected cs (stripDirectives cs) where
  outside := keptLines_eq (lines cs)
  joined := rfl
  relined := lines_stripDirectives
  startsNo := startsNo_of_mem_keptLines false (lines cs)
  again := stripDirectives_again cs
  followed := stripDirectives_lines

/-- A blank line ends a directive that goes on into it, and the last line starts another. -/
example : stripDirectives "a\n #define b \\ \n \nc\n#d \\".toList = "a\nc".toList := by decide

end KernelLaunch.Source
