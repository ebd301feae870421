import KernelLaunch.Proofs.Source.Passage
import KernelLaunch.Proofs.Source.Scanner
import KernelLaunch.Source.Selection

/-!
Independence from comment bodies. Removing a comment leaves a trace that depends on its kind
and its number of newlines only, so the kernels found in a source do not depend on what its
comments say.
-/

namespace KernelLaunch.Source

/-- Comments of one kind with as many newlines. -/
inductive Comment.Alike : Comment → Comment → Prop
  | line (body body' : List Char) (unbroken : '\n' ∉ body) (unbroken' : '\n' ∉ body') :
      Alike (.line body unbroken) (.line body' unbroken')
  | block (body body' : List Char) (unclosed : ¬ ['*', '/'] <:+: body)
      (unclosed' : ¬ ['*', '/'] <:+: body') (newlines : body.count '\n' = body'.count '\n') :
      Alike (.block body unclosed) (.block body' unclosed')

theorem Comment.Alike.trace_eq {c c' : Comment} (h : c.Alike c') : c.trace = c'.trace := by
  cases h with
  | line => rfl
  | block body body' unclosed unclosed' newlines =>
      simp only [Comment.trace, List.filter_beq, newlines]

/-- A comment that begins in code leaves its trace, and what follows is read as code. -/
theorem stripComments_comment {a : List Char} (ha : EndsOutside a) (hslash : ¬ EndsInSlash a)
    (c : Comment) (b : List Char) :
    stripComments (a ++ (c.text ++ b)) = stripComments a ++ (c.trace ++ stripComments b) := by
  rw [stripComments_append ha fun h => absurd h hslash]
  exact congrArg _ (c.strip b)

/-- Kernel selection does not depend on comment bodies: it returns the same interface or the
same error. -/
theorem interface_comment {a : List Char} (ha : EndsOutside a) (hslash : ¬ EndsInSlash a)
    {c c' : Comment} (h : c.Alike c') (b : List Char) (name : Option String) :
    interface name (String.ofList (a ++ (c.text ++ b))) =
      interface name (String.ofList (a ++ (c'.text ++ b))) := by
  have hcode : code (a ++ (c.text ++ b)) = code (a ++ (c'.text ++ b)) := by
    rw [code, code, stripComments_comment ha hslash, stripComments_comment ha hslash, h.trace_eq]
  rw [interface, interface, String.toList_ofList, String.toList_ofList, hcode]

/-- Behind a division and a quoted comment opener, one comment hides a kernel and quotes, and
another one nothing. -/
theorem interface_hidden_kernel :
    EndsOutside "a / b, '/*' ".toList ∧ ¬ EndsInSlash "a / b, '/*' ".toList ∧
      interface none "a / b, '/*' /*\" kernel void g(/*/kernel void f(int n)" =
        .ok ⟨"f", "int n"⟩ ∧
      interface none "a / b, '/*' /**/kernel void f(int n)" = .ok ⟨"f", "int n"⟩ := by
  have houtside : EndsOutside "a / b, '/*' ".toList := by decide
  have hslash : ¬ EndsInSlash "a / b, '/*' ".toList := by decide
  have halike : Comment.Alike (.block "\" kernel void g(/".toList (by decide))
      (.block [] (by decide)) := .block _ _ _ _ (by decide)
  have hkernels : kernels (code "a / b, '/*' /**/kernel void f(int n)".toList) =
      [⟨"f", "int n"⟩] := by decide +kernel
  have hfound : interface none "a / b, '/*' /**/kernel void f(int n)" = .ok ⟨"f", "int n"⟩ := by
    rw [interface, hkernels]
    rfl
  have hsame := interface_comment houtside hslash halike "kernel void f(int n)".toList none
  have htext : String.ofList ("a / b, '/*' ".toList ++ ((Comment.block "\" kernel void g(/".toList
      (by decide)).text ++ "kernel void f(int n)".toList)) =
        "a / b, '/*' /*\" kernel void g(/*/kernel void f(int n)" := by decide +kernel
  have htext' : String.ofList ("a / b, '/*' ".toList ++ ((Comment.block [] (by decide)).text ++
      "kernel void f(int n)".toList)) = "a / b, '/*' /**/kernel void f(int n)" := by
    decide +kernel
  rw [htext, htext'] at hsame
  exact ⟨houtside, hslash, hsame.trans hfound, hfound⟩

end KernelLaunch.Source
