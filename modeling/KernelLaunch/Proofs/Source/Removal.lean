import KernelLaunch.Proofs.Source.Scanner

/-!
Comment removal on arbitrary, possibly malformed text. The output takes the scanner through
the same states as the input with comments turned into code, so a second removal changes
nothing, every literal is kept, and the number of newlines is the same.
-/

namespace KernelLaunch.Source

section Again

/-- The place that what has been written ends in. Nothing is left of comments, and what is held
back has not been written. -/
def Place.left : Place → Place
  | literal quote | escape quote => literal quote
  | _ => code

theorem Place.left_ofCode {c : Char} (hc : c ≠ '/') : (ofCode c).left = ofCode c := by
  rw [ofCode, if_neg hc]
  split <;> rfl

theorem Place.left_next_comment {p : Place}
    (hp : p.region = .lineComment ∨ p.region = .blockComment) (c : Char) : (p.next c).left = code := by
  cases p with
  | lineComment | blockComment | star => grind [next, left]
  | _ => simp [region] at hp

/-- What is written for a character leads to where the character leads, and is written again. -/
theorem written_again (p : Place) (c : Char) :
    scan p.left (p.written c) = (p.next c).left ∧
      output p.left (p.written c) = p.written c := by
  cases p with
  | code =>
      by_cases hc : c = '/'
      · subst hc
        exact ⟨rfl, rfl⟩
      · have hwritten : Place.code.written c = [c] := if_neg hc
        rw [hwritten]
        exact ⟨(Place.left_ofCode hc).symm, congrArg (· ++ []) hwritten⟩
  | slash =>
      by_cases hline : c = '/'
      · subst hline
        exact ⟨rfl, rfl⟩
      · by_cases hblock : c = '*'
        · subst hblock
          exact ⟨rfl, rfl⟩
        · have hwritten : Place.slash.written c = ['/', c] := (if_neg hline).trans (if_neg hblock)
          have hnext : Place.slash.next c = .ofCode c := (if_neg hline).trans (if_neg hblock)
          rw [hwritten, hnext, Place.left_ofCode hline]
          exact ⟨hnext, congrArg (· ++ []) hwritten⟩
  | lineComment | blockComment | star =>
      rw [Place.left_next_comment (by simp [Place.region])]
      simp only [Place.written]
      split <;> exact ⟨rfl, rfl⟩
  | literal quote =>
      by_cases hc : c = '\\'
      · subst hc
        exact ⟨rfl, rfl⟩
      · have hwritten : (Place.literal quote).written c = [c] := if_neg hc
        have hnext : (Place.literal quote).next c =
            if c = quote ∨ c = '\n' then .code else .literal quote := if_neg hc
        have hleft : ((Place.literal quote).next c).left = (Place.literal quote).next c := by
          rw [hnext]
          split <;> rfl
        rw [hwritten]
        exact ⟨hleft.symm, congrArg (· ++ []) hwritten⟩
  | escape quote => exact ⟨rfl, rfl⟩

theorem scan_append (p : Place) (x y : List Char) : scan p (x ++ y) = scan (scan p x) y :=
  List.foldl_append

theorem output_append (p : Place) (x y : List Char) :
    output p (x ++ y) = output p x ++ output (scan p x) y := by
  induction x generalizing p with
  | nil => rfl
  | cons c x ih =>
      rw [List.cons_append, output, ih, output, List.append_assoc]
      rfl

/-- What is written for a text leads to where the text leads, and is written again. -/
theorem output_again (p : Place) (x : List Char) :
    scan p.left (output p x) = (scan p x).left ∧ output p.left (output p x) = output p x := by
  induction x generalizing p with
  | nil => exact ⟨rfl, rfl⟩
  | cons c x ih =>
      obtain ⟨hplace, hwritten⟩ := written_again p c
      obtain ⟨hscan, houtput⟩ := ih (p.next c)
      rw [output, scan_append, output_append, hplace, hwritten, hscan, houtput]
      exact ⟨rfl, rfl⟩

/-- A text without its comments is what is written for it, and what is held back at its end. -/
theorem stripComments_eq (cs : List Char) :
    stripComments cs =
      output .code cs ++ stripFrom (scan .code cs).region (scan .code cs).held := by
  have hscan := strip_scan .code cs []
  rwa [List.append_nil, List.append_nil] at hscan

/-- What is left of a text holds no comments. -/
theorem stripComments_again (cs : List Char) :
    stripComments (stripComments cs) = stripComments cs := by
  obtain ⟨hscan, houtput⟩ := output_again .code cs
  have htwice := strip_scan .code (output .code cs)
    (stripFrom (scan .code cs).region (scan .code cs).held)
  have hplace : scan .code (output .code cs) = (scan .code cs).left := hscan
  have hwritten : output .code (output .code cs) = output .code cs := houtput
  rw [← stripComments_eq, hplace, hwritten] at htwice
  refine Eq.trans htwice ?_
  rw [stripComments_eq]
  cases scan .code cs <;> rfl

/-- A text that ends outside of comments and literals does so without its comments, too. -/
theorem EndsOutside.stripComments {a : List Char} (h : EndsOutside a) :
    EndsOutside (stripComments a) := by
  obtain ⟨hscan, _⟩ := output_again .code a
  have hplace : scan .code (output .code a) = (scan .code a).left := hscan
  unfold EndsOutside at h ⊢
  rw [stripComments_eq, scan_append, hplace]
  cases hend : scan .code a with
  | code | slash => rfl
  | _ =>
      rw [hend] at h
      cases h

end Again

section Newlines

theorem newline_not_mem_written (p : Place) {c : Char} (hc : c ≠ '\n') :
    '\n' ∉ p.written c := by
  cases p <;> grind [Place.written]

/-- Every newline is written as it is read, whatever it stands in. -/
theorem count_written (p : Place) (c : Char) : (p.written c).count '\n' = [c].count '\n' := by
  by_cases hc : c = '\n'
  · subst hc
    cases p <;> rfl
  · have hread : '\n' ∉ [c] := fun hmem => hc (List.mem_singleton.mp hmem).symm
    rw [List.count_eq_zero_of_not_mem (newline_not_mem_written p hc),
      List.count_eq_zero_of_not_mem hread]

theorem count_output (p : Place) (cs : List Char) :
    (output p cs).count '\n' = cs.count '\n' := by
  induction cs generalizing p with
  | nil => rfl
  | cons c cs ih =>
      rw [output, List.count_append, count_written, ih, ← List.count_append,
        List.singleton_append]

/-- A character that is held back is no newline. -/
theorem count_held (p : Place) : (stripFrom p.region p.held).count '\n' = 0 := by
  cases p <;> rfl

theorem count_stripComments (cs : List Char) :
    (stripComments cs).count '\n' = cs.count '\n' := by
  rw [stripComments_eq, List.count_append, count_output, count_held, Nat.add_zero]

end Newlines

section Literals

/-- The rest of a literal, up to its quote, the end of its line or the end of the text. A
backslash takes the next character with it. -/
def literalRest (quote : Char) : List Char → List Char
  | [] => []
  | '\\' :: c :: rest => '\\' :: c :: literalRest quote rest
  | c :: rest => if c = quote ∨ c = '\n' then [c] else c :: literalRest quote rest

/-- A literal stays, and what is behind it is read as code. -/
theorem strip_literalRest (quote : Char) (cs : List Char) :
    ∃ after, cs = literalRest quote cs ++ after ∧
      stripFrom (.literal quote) cs = literalRest quote cs ++ stripComments after := by
  fun_induction literalRest quote cs with
  | case1 => exact ⟨[], rfl, rfl⟩
  | case2 c rest ih =>
      obtain ⟨after, hcut, hstrip⟩ := ih
      exact ⟨after, congrArg ('\\' :: c :: ·) hcut, congrArg ('\\' :: c :: ·) hstrip⟩
  | case3 c rest noEscape hends =>
      refine ⟨rest, rfl, ?_⟩
      rw [strip_literal_of quote noEscape, Region.ofLiteral, if_pos hends]
      rfl
  | case4 c rest noEscape hgoes ih =>
      obtain ⟨after, hcut, hstrip⟩ := ih
      refine ⟨after, congrArg (c :: ·) hcut, ?_⟩
      rw [strip_literal_of quote noEscape, Region.ofLiteral, if_neg hgoes, hstrip]
      rfl

/-- A literal that begins in code stays between what is left of the texts around it. -/
theorem stripComments_literal {before : List Char} (hbefore : EndsOutside before) {quote : Char}
    (hquote : quote = '"' ∨ quote = '\'') (rest : List Char) :
    ∃ after, rest = literalRest quote rest ++ after ∧
      stripComments (before ++ quote :: rest) =
        stripComments before ++ (quote :: literalRest quote rest ++ stripComments after) := by
  obtain ⟨after, hcut, hstrip⟩ := strip_literalRest quote rest
  have hopens : quote ≠ '/' ∧ quote ≠ '*' := by
    rcases hquote with rfl | rfl <;> decide
  have hcode : stripComments (quote :: rest) = quote :: stripFrom (.literal quote) rest := by
    rw [stripComments, strip_code hopens.1, Region.ofCode, if_pos hquote]
  refine ⟨after, hcut, ?_⟩
  rw [stripComments_append hbefore fun _ => by rintro c ⟨⟩; exact hopens, hcode, hstrip]
  rfl

end Literals

/-- The guarantees of comment removal. -/
structure Uncommented (cs out : List Char) : Prop where
  /-- Removal is idempotent. -/
  again : stripComments out = out
  newlines : out.count '\n' = cs.count '\n'
  /-- Every literal of the text begins a literal of what is left, and has the same characters. -/
  literal : ∀ before quote rest, cs = before ++ quote :: rest → EndsOutside before →
    quote = '"' ∨ quote = '\'' →
      EndsOutside (stripComments before) ∧
        ∃ after, rest = literalRest quote rest ++ after ∧
          out = stripComments before ++ (quote :: literalRest quote rest ++ stripComments after)

/-- Comment removal is idempotent and keeps every newline and every literal. -/
theorem stripComments_uncommented (cs : List Char) : Uncommented cs (stripComments cs) where
  again := stripComments_again cs
  newlines := count_stripComments cs
  literal := by
    rintro before quote rest rfl hbefore hquote
    exact ⟨hbefore.stripComments, stripComments_literal hbefore hquote rest⟩

/-- A slash before a comment, and a literal that the end of the text cuts off. -/
example : stripComments "a/ /*\n//*/b'\\'/*\\".toList = "a/  \nb'\\'/*\\".toList := by decide

end KernelLaunch.Source
