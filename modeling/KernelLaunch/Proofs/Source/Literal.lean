import KernelLaunch.Proofs.Source.Directive
import KernelLaunch.Proofs.Source.ParameterList
import KernelLaunch.Proofs.Source.Scanner
import KernelLaunch.Source.Selection

/-!
String and character literals in sources. Comment removal keeps them, and the kernel search
reads their contents like code. No header extends across a quote, so a literal outside of
all parameter lists matters only by the headers inside it.
-/

namespace KernelLaunch.Source

open Text

theorem isStop_quote : IsStop '"' := by decide

/-- What can stand between double quotes in one line, and is not escaped. -/
def IsQuotable (s : List Char) : Prop := '"' ∉ s ∧ '\\' ∉ s ∧ '\n' ∉ s

instance (s : List Char) : Decidable (IsQuotable s) := inferInstanceAs (Decidable (_ ∧ _))

def quotedText (s : List Char) : List Char := '"' :: (s ++ ['"'])

theorem strip_quoted {s : List Char} (hs : IsQuotable s) (rest : List Char) :
    stripFrom .code (quotedText s ++ rest) = quotedText s ++ stripFrom .code rest := by
  obtain ⟨hquote, hescape, hline⟩ := hs
  have hinside : stripFrom (.literal '"') (s ++ '"' :: rest) =
      s ++ '"' :: stripFrom .code rest := by
    induction s with
    | nil => rfl
    | cons c s ih =>
        simp only [List.mem_cons, not_or] at hquote hescape hline
        have hregion : Region.ofLiteral '"' c = .literal '"' := by
          apply if_neg
          rintro (rfl | rfl)
          · exact hquote.1 rfl
          · exact hline.1 rfl
        rw [List.cons_append, strip_literal '"' (Ne.symm hescape.1), hregion,
          ih hquote.2 hescape.2 hline.2, List.cons_append]
  have hcode : '"' ≠ '/' := by decide
  have hopen := strip_code hcode (s ++ '"' :: rest)
  simp only [quotedText, List.cons_append, List.append_assoc, List.nil_append]
  rw [hopen]
  exact congrArg ('"' :: ·) hinside

/-- The end of a text is outside of comments, literals, directives and parameter lists. -/
structure EndsInCode (a : List Char) : Prop where
  outside : EndsOutside a
  noDirective : endsInDirective (stripComments a) = false
  noList : ListsEnd (code a)

/-- A quoted text stays in the code, and nothing around it depends on it. -/
theorem code_quoted {a : List Char} (ha : EndsOutside a)
    (hdirective : endsInDirective (stripComments a) = false) (b : List Char) :
    ∃ rest, ∀ s, IsQuotable s →
      code (a ++ (quotedText s ++ b)) = code a ++ (quotedText s ++ rest) := by
  obtain ⟨rest, hrest⟩ := stripDirectives_append hdirective (stripComments b)
  refine ⟨rest, fun s hs => ?_⟩
  have hstrip : stripComments (a ++ (quotedText s ++ b)) =
      stripComments a ++ (quotedText s ++ stripComments b) := by
    rw [stripComments_append ha (fun _ => by rintro c ⟨⟩; decide)]
    exact congrArg _ (strip_quoted hs b)
  have hline : '\n' ∉ quotedText s := by
    simp [quotedText, hs.2.2]
  rw [code, hstrip]
  exact hrest '"' (s ++ ['"']) (by decide) (by decide) hline

/-- What is found besides the declarations in a quoted text whose lists end in it. -/
theorem declaredFrom_quoted {a : List Char} (ha : EndsInCode a) (b : List Char) :
    ∃ after, ∀ s, IsQuotable s → ListsEnd s →
      declaredFrom false (code (a ++ (quotedText s ++ b))) =
        declaredFrom false (code a) ++ (declaredFrom false s ++ after) := by
  obtain ⟨rest, hrest⟩ := code_quoted ha.outside ha.noDirective b
  refine ⟨declaredFrom false rest, fun s hs hlists => ?_⟩
  have htext : code a ++ (quotedText s ++ rest) = code a ++ '"' :: (s ++ '"' :: rest) := by
    simp [quotedText]
  rw [hrest s hs, htext, declaredFrom_stop isStop_quote ha.noList,
    declaredFrom_stop isStop_quote hlists]

/-- A string literal without a kernel header in it does not influence selection. -/
theorem interface_quoted {a : List Char} (ha : EndsInCode a) {s s' : List Char}
    (hs : IsQuotable s) (hs' : IsQuotable s') (hnone : openings false s = [])
    (hnone' : openings false s' = []) (b : List Char) :
    kernels (code (a ++ (quotedText s ++ b))) = kernels (code (a ++ (quotedText s' ++ b))) ∧
      ∀ name, interface name (String.ofList (a ++ (quotedText s ++ b))) =
        interface name (String.ofList (a ++ (quotedText s' ++ b))) := by
  have hsame : kernels (code (a ++ (quotedText s ++ b))) =
      kernels (code (a ++ (quotedText s' ++ b))) := by
    obtain ⟨after, hafter⟩ := declaredFrom_quoted ha b
    have hlists : ListsEnd s := by simp [ListsEnd, hnone]
    have hlists' : ListsEnd s' := by simp [ListsEnd, hnone']
    rw [kernels, kernels, hafter s hs hlists, hafter s' hs' hlists',
      declaredFrom_of_openings hnone, declaredFrom_of_openings hnone']
  refine ⟨hsame, fun name => ?_⟩
  rw [interface, interface, String.toList_ofList, String.toList_ofList, hsame]

/-- Code of a kernel, behind its parameter list, a directive and a division. -/
def sampleCode : List Char := "#define g(x)\nkernel void f(int a) \x7b g('\"' /".toList

/-- What closes the code that `sampleCode` begins. -/
def sampleEnd : List Char := "); \x7d".toList

/-- Words and brackets of a declaration in a quoted text, but no header. -/
theorem sampleCode_quoted :
    EndsInCode sampleCode ∧ IsQuotable "[kernel void h)".toList ∧ IsQuotable [] ∧
      openings false "[kernel void h)".toList = [] ∧ openings false [] = [] ∧
      kernels (code (sampleCode ++ (quotedText "[kernel void h)".toList ++ sampleEnd))) =
        kernels (code (sampleCode ++ (quotedText [] ++ sampleEnd))) ∧
      kernels (code (sampleCode ++ (quotedText [] ++ sampleEnd))) = [⟨"f", "int a"⟩] := by
  have hcode : EndsInCode sampleCode := ⟨by decide, by decide, by decide +kernel⟩
  have hs : IsQuotable "[kernel void h)".toList := by decide
  have hs' : IsQuotable [] := by decide
  have hnone : openings false "[kernel void h)".toList = [] := by decide +kernel
  obtain ⟨hsame, _⟩ := interface_quoted hcode hs hs' hnone rfl sampleEnd
  exact ⟨hcode, hs, hs', hnone, rfl, hsame, by decide +kernel⟩

/-- A kernel declaration inside a string literal is found as a second kernel of the source. -/
theorem quoted_declaration_is_found :
    EndsInCode sampleCode ∧ IsQuotable "kernel void h(int n)".toList ∧
      kernels (code (sampleCode ++ (quotedText "kernel void h(int n)".toList ++ sampleEnd))) =
        [⟨"f", "int a"⟩, ⟨"h", "int n"⟩] ∧
      kernels (code (sampleCode ++ (quotedText [] ++ sampleEnd))) = [⟨"f", "int a"⟩] := by
  refine ⟨⟨by decide, by decide, by decide +kernel⟩, by decide, ?_, ?_⟩
  · decide +kernel
  · decide +kernel

end KernelLaunch.Source
