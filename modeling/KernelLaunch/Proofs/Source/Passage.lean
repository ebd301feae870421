import Mathlib.Data.List.Infix
import KernelLaunch.Proofs.Source.Scanner
import KernelLaunch.Text.Blank

/-!
Texts with comments in them. A passage is written out with its comments, and
what is left of it without them is its trace: the newline of a line comment, and
a space with the newlines of a block comment.
-/

namespace KernelLaunch.Source

open Text

/-- A complete comment. -/
inductive Comment where
  | line (body : List Char) (unbroken : '\n' ∉ body)
  | block (body : List Char) (unclosed : ¬ ['*', '/'] <:+: body)

namespace Comment

def text : Comment → List Char
  | line body _ => '/' :: '/' :: (body ++ ['\n'])
  | block body _ => '/' :: '*' :: (body ++ ['*', '/'])

def trace : Comment → List Char
  | line _ _ => ['\n']
  | block body _ => ' ' :: body.filter (· == '\n')

private theorem strip_lineBody (body rest : List Char) (h : '\n' ∉ body) :
    stripFrom .lineComment (body ++ '\n' :: rest) = '\n' :: stripFrom .code rest := by
  induction body with
  | nil => rfl
  | cons c body ih =>
      have hc : c ≠ '\n' := fun heq => h (heq ▸ List.mem_cons_self)
      have hbody : '\n' ∉ body := fun hmem => h (List.mem_cons_of_mem c hmem)
      rw [List.cons_append, strip_line hc, ih hbody]

private theorem strip_blockBody (body rest : List Char) (h : ¬ ['*', '/'] <:+: body) :
    stripFrom .blockComment (body ++ '*' :: '/' :: rest) =
      body.filter (· == '\n') ++ stripFrom .code rest := by
  induction body with
  | nil => rfl
  | cons c body ih =>
      have hbody : ¬ ['*', '/'] <:+: body := fun hpart =>
        h (hpart.trans (List.suffix_cons c body).isInfix)
      by_cases hnewline : c = '\n'
      · subst hnewline
        rw [List.cons_append, stripFrom, ih hbody]
        rfl
      · have hclose : c = '*' → ∀ tail, body ++ '*' :: '/' :: rest ≠ '/' :: tail := by
          rintro rfl tail heq
          cases body with
          | nil => cases heq
          | cons d body =>
              cases heq
              exact h ⟨[], body, rfl⟩
        rw [List.cons_append, strip_block hnewline hclose, ih hbody,
          List.filter_cons_of_neg (by simpa using hnewline)]

theorem strip (c : Comment) (rest : List Char) :
    stripFrom .code (c.text ++ rest) = c.trace ++ stripFrom .code rest := by
  cases c with
  | line body unbroken =>
      have htext : (line body unbroken).text ++ rest = '/' :: '/' :: (body ++ '\n' :: rest) := by
        simp [text]
      rw [htext, stripFrom]
      exact strip_lineBody body rest unbroken
  | block body unclosed =>
      have htext : (block body unclosed).text ++ rest =
          '/' :: '*' :: (body ++ '*' :: '/' :: rest) := by
        simp [text]
      rw [htext, stripFrom, strip_blockBody body rest unclosed]
      rfl

theorem trace_ne_nil (c : Comment) : c.trace ≠ [] := by
  cases c <;> simp [trace]

theorem trace_blank (c : Comment) : ∀ b ∈ c.trace, isBlank b = true := by
  intro b hb
  cases c with
  | line body unbroken =>
      rw [List.mem_singleton.mp hb]
      rfl
  | block body unclosed =>
      rcases List.mem_cons.mp hb with rfl | hb
      · rfl
      · have hnewline := (List.mem_filter.mp hb).2
        rw [eq_of_beq hnewline]
        rfl

end Comment

/-- A character that means nothing to the removal of comments, wherever it
stands. -/
def IsInert (c : Char) : Prop := c ≠ '"' ∧ c ≠ '\'' ∧ c ≠ '/'

instance (c : Char) : Decidable (IsInert c) := inferInstanceAs (Decidable (_ ∧ _))

theorem IsInert.of_blank {c : Char} (h : isBlank c = true) : IsInert c := by
  refine ⟨?_, ?_, ?_⟩ <;> rintro rfl <;> exact absurd h (by decide)

/-- A text without quotes and comment openers is left as it is, unless its end
opens a comment together with what follows. -/
theorem strip_free (t rest : List Char) (hquotes : '"' ∉ t ∧ '\'' ∉ t)
    (hline : ¬ ['/', '/'] <:+: t) (hblock : ¬ ['/', '*'] <:+: t)
    (hend : t.getLast? = some '/' → rest = []) :
    stripFrom .code (t ++ rest) = t ++ stripFrom .code rest := by
  induction t with
  | nil => rfl
  | cons c t ih =>
      have hnoLine : ∀ tail, c = '/' → t ++ rest = '/' :: tail → False := by
        rintro tail rfl heq
        cases t with
        | nil =>
            rw [hend rfl] at heq
            cases heq
        | cons d t =>
            cases heq
            exact hline ⟨[], t, rfl⟩
      have hnoBlock : ∀ tail, c = '/' → t ++ rest = '*' :: tail → False := by
        rintro tail rfl heq
        cases t with
        | nil =>
            rw [hend rfl] at heq
            cases heq
        | cons d t =>
            cases heq
            exact hblock ⟨[], t, rfl⟩
      have hcode : Region.ofCode c = .code := by
        refine if_neg ?_
        rintro (rfl | rfl)
        · exact hquotes.1 List.mem_cons_self
        · exact hquotes.2 List.mem_cons_self
      rw [List.cons_append, stripFrom, hcode, ih]
      · rfl
      · exact ⟨fun h => hquotes.1 (List.mem_cons_of_mem c h),
          fun h => hquotes.2 (List.mem_cons_of_mem c h)⟩
      · exact fun h => hline (h.trans (List.suffix_cons c t).isInfix)
      · exact fun h => hblock (h.trans (List.suffix_cons c t).isInfix)
      · intro hlast
        cases t with
        | nil => cases hlast
        | cons d t => exact hend (by simpa using hlast)
      · exact hnoLine
      · exact hnoBlock

theorem strip_inert (t rest : List Char) (h : ∀ c ∈ t, IsInert c) :
    stripFrom .code (t ++ rest) = t ++ stripFrom .code rest := by
  have hslash : '/' ∉ t := fun hmem => (h _ hmem).2.2 rfl
  refine strip_free t rest ⟨fun hmem => (h _ hmem).1 rfl, fun hmem => (h _ hmem).2.1 rfl⟩ ?_ ?_ ?_
  · exact fun hpart => hslash (hpart.subset List.mem_cons_self)
  · exact fun hpart => hslash (hpart.subset List.mem_cons_self)
  · intro hlast
    exact absurd (List.mem_of_getLast? hlast) hslash

/-- A piece of a passage. -/
inductive Piece where
  | char (c : Char)
  | comment (c : Comment)

/-- A text with comments between its characters. -/
abbrev Passage := List Piece

namespace Passage

def text (p : Passage) : List Char := p.flatMap fun
  | .char c => [c]
  | .comment c => c.text

def trace (p : Passage) : List Char := p.flatMap fun
  | .char c => [c]
  | .comment c => c.trace

@[simp] theorem text_char (c : Char) (p : Passage) : text (.char c :: p) = c :: p.text := rfl

@[simp] theorem text_comment (c : Comment) (p : Passage) :
    text (.comment c :: p) = c.text ++ p.text := rfl

@[simp] theorem trace_char (c : Char) (p : Passage) : trace (.char c :: p) = c :: p.trace := rfl

@[simp] theorem trace_comment (c : Comment) (p : Passage) :
    trace (.comment c :: p) = c.trace ++ p.trace := rfl

@[simp] theorem text_append (p q : Passage) : text (p ++ q) = text p ++ text q :=
  List.flatMap_append

@[simp] theorem trace_append (p q : Passage) : trace (p ++ q) = trace p ++ trace q :=
  List.flatMap_append

@[simp] theorem trace_map_char (cs : List Char) : trace (cs.map .char) = cs := by
  induction cs with
  | nil => rfl
  | cons c cs ih => rw [List.map_cons, trace_char, ih]

theorem strip (p : Passage) (rest : List Char) (h : ∀ c, .char c ∈ p → IsInert c) :
    stripFrom .code (p.text ++ rest) = p.trace ++ stripFrom .code rest := by
  induction p with
  | nil => rfl
  | cons piece p ih =>
      have hp : ∀ c, .char c ∈ p → IsInert c := fun c hc => h c (List.mem_cons_of_mem _ hc)
      cases piece with
      | char c =>
          have hc : ∀ d ∈ [c], IsInert d := by
            intro d hd
            rw [List.mem_singleton.mp hd]
            exact h c List.mem_cons_self
          have hstrip := strip_inert [c] (text p ++ rest) hc
          rw [ih hp] at hstrip
          rw [text_char, trace_char]
          exact hstrip
      | comment c =>
          rw [text_comment, trace_comment, List.append_assoc, c.strip, ih hp, List.append_assoc]

theorem mem_trace {p : Passage} {c : Char} (h : c ∈ p.trace) :
    .char c ∈ p ∨ isBlank c = true := by
  obtain ⟨piece, hpiece, hc⟩ := List.mem_flatMap.mp h
  cases piece with
  | char d =>
      rw [List.mem_singleton.mp hc]
      exact .inl hpiece
  | comment d => exact .inr (d.trace_blank c hc)

end Passage

/-- What may stand between two words: blanks and comments. -/
structure Gap where
  passage : Passage
  blank : ∀ c, .char c ∈ passage → isBlank c = true

namespace Gap

theorem trace_blank (g : Gap) : ∀ c ∈ g.passage.trace, isBlank c = true := by
  intro c hc
  rcases Passage.mem_trace hc with hchar | hblank
  · exact g.blank c hchar
  · exact hblank

theorem trace_ne_nil (g : Gap) (h : g.passage ≠ []) : g.passage.trace ≠ [] := by
  cases hpassage : g.passage with
  | nil => exact absurd hpassage h
  | cons piece p =>
      cases piece with
      | char c => simp
      | comment c => simp [c.trace_ne_nil]

end Gap

end KernelLaunch.Source
