import Mathlib.Data.List.Chain
import KernelLaunch.Proofs.Source.Header
import KernelLaunch.Proofs.Text.Words
import KernelLaunch.Signature.Declaration

/-!
Declarations of parameters as they are written. What stands before the end of the
name is a row of marks, no two of them words that touch; what stands after it are
array sizes. Each cut of the text goes along the marks, so the words that are left
of it, the promise to read only and the stars can be read off them.
-/

namespace KernelLaunch.Signature

open Text

/-- A word of a declaration that is neither of its type nor its name. -/
inductive Modifier where
  | qualifier (name : String) (known : name ∈ qualifiers) (underscored : Bool)
  | attr (inner : List Char) (nonempty : inner ≠ []) (word : ∀ c ∈ inner, isWord c = true)

namespace Modifier

def text : Modifier → List Char
  | qualifier name _ underscored => (if underscored then ['_', '_'] else []) ++ name.toList
  | attr inner _ _ => ['_', '_'] ++ inner ++ ['_', '_']

/-- Whether it promises that the kernel only reads. -/
def readsOnly : Modifier → Bool
  | qualifier name _ _ => name == "const" || name == "constant"
  | attr _ _ _ => false

theorem text_ne_nil (m : Modifier) : m.text ≠ [] := by
  cases m with
  | qualifier name known underscored =>
      have hall : ∀ name ∈ qualifiers, name.toList ≠ [] := by decide +kernel
      simp [text, hall name known]
  | attr inner _ _ => simp [text]

theorem text_word (m : Modifier) : ∀ c ∈ m.text, isWord c = true := by
  have hunderscore : isWord '_' = true := by decide +kernel
  cases m with
  | qualifier name known underscored =>
      have hall : qualifiers.all (fun name => name.toList.all isWord) = true := by decide +kernel
      intro c hc
      rcases List.mem_append.mp hc with hc | hc
      · cases underscored with
        | false => cases hc
        | true =>
            simp only [if_true, List.mem_cons, List.not_mem_nil, or_false, or_self] at hc
            rw [hc, hunderscore]
      · exact List.all_eq_true.mp (List.all_eq_true.mp hall name known) c hc
  | attr inner _ word =>
      intro c hc
      simp only [text, List.cons_append, List.nil_append, List.mem_cons, List.mem_append,
        List.not_mem_nil, or_false, or_self] at hc
      rcases hc with rfl | rfl | hc | rfl
      · exact hunderscore
      · exact hunderscore
      · exact word c hc
      · exact hunderscore

end Modifier

theorem isOneOf_iff {names : List String} {w : List Char} :
    isOneOf names w = true ↔
      ∃ name ∈ names, ∃ underscored : Bool,
        w = (if underscored then ['_', '_'] else []) ++ name.toList := by
  simp [isOneOf]

theorem isAttribute_iff {w : List Char} :
    isAttribute w = true ↔ ∃ inner, inner ≠ [] ∧ w = ['_', '_'] ++ inner ++ ['_', '_'] := by
  simp only [isAttribute, Bool.and_eq_true, decide_eq_true_eq, beq_iff_eq]
  constructor
  · rintro ⟨⟨hlength, hfirst⟩, hlast⟩
    refine ⟨(w.drop 2).take (w.length - 4), ?_, ?_⟩
    · rw [← List.length_pos_iff, List.length_take, List.length_drop]
      omega
    · have hrest : w.drop 2 = (w.drop 2).take (w.length - 4) ++ ['_', '_'] := by
        have hend : (w.drop 2).drop (w.length - 4) = ['_', '_'] := by
          rw [List.drop_drop, ← hlast]
          congr 1
          omega
        rw [← hend, List.take_append_drop]
      rw [List.append_assoc, ← hrest, ← hfirst, List.take_append_drop]
  · rintro ⟨inner, hinner, rfl⟩
    have hpositive := List.length_pos_iff.mpr hinner
    refine ⟨⟨?_, by simp⟩, ?_⟩
    · simp only [List.length_append, List.length_cons, List.length_nil]
      omega
    · rw [List.drop_left' (by simp only [List.length_append, List.length_cons, List.length_nil]; omega)]

/-- What is taken out of a declaration are its modifiers. -/
theorem isModifier_iff {w : List Char} (hw : ∀ c ∈ w, isWord c = true) :
    (isAttribute w || isOneOf qualifiers w) = true ↔ ∃ m : Modifier, w = m.text := by
  rw [Bool.or_eq_true, isAttribute_iff, isOneOf_iff]
  constructor
  · rintro (⟨inner, hinner, rfl⟩ | ⟨name, hname, underscored, rfl⟩)
    · exact ⟨.attr inner hinner fun c hc => hw c (by simp [hc]), rfl⟩
    · exact ⟨.qualifier name hname underscored, rfl⟩
  · rintro ⟨_ | _, rfl⟩
    · next name known underscored => exact .inr ⟨name, known, underscored, rfl⟩
    · next inner nonempty word => exact .inl ⟨inner, nonempty, rfl⟩

theorem isConstant_text (m : Modifier) : isOneOf ["const", "constant"] m.text = m.readsOnly := by
  cases m with
  | qualifier name known underscored =>
      have hall : ∀ name ∈ qualifiers, ∀ underscored : Bool,
          isOneOf ["const", "constant"]
            ((if underscored then ['_', '_'] else []) ++ name.toList) =
          (name == "const" || name == "constant") := by decide +kernel
      exact hall name known underscored
  | attr inner nonempty word =>
      rw [Modifier.readsOnly, ← Bool.not_eq_true, isOneOf_iff]
      rintro ⟨name, hname, underscored, htext⟩
      have hlast : ∀ name ∈ ["const", "constant"], name.toList.getLast? = some 't' := by
        decide +kernel
      have hend := congrArg List.getLast? htext
      rw [List.getLast?_append, hlast name hname, Modifier.text, List.getLast?_append] at hend
      cases hend

theorem isConstant_iff {w : List Char} :
    isOneOf ["const", "constant"] w = true ↔ ∃ m : Modifier, m.readsOnly = true ∧ w = m.text := by
  constructor
  · intro h
    obtain ⟨name, hname, underscored, rfl⟩ := isOneOf_iff.mp h
    have hknown : ∀ name ∈ ["const", "constant"], name ∈ qualifiers := by decide +kernel
    have hreads := isConstant_text (.qualifier name (hknown name hname) underscored)
    exact ⟨.qualifier name (hknown name hname) underscored, hreads.symm.trans h, rfl⟩
  · rintro ⟨m, hreads, rfl⟩
    exact (isConstant_text m).trans hreads

/-- A word that can be part of a type, or a name. -/
structure IsPlain (w : List Char) : Prop where
  isName : Source.IsName w
  notModifier : ∀ m : Modifier, w ≠ m.text

theorem isPlain_iff {w : List Char} (hname : Source.IsName w) :
    IsPlain w ↔ (isAttribute w || isOneOf qualifiers w) = false := by
  rw [← Bool.not_eq_true, isModifier_iff hname.word]
  constructor
  · rintro ⟨_, hnot⟩ ⟨m, hm⟩
    exact hnot m hm
  · exact fun hnot => ⟨hname, fun m hm => hnot ⟨m, hm⟩⟩

instance (w : List Char) : Decidable (IsPlain w) :=
  if hname : Source.IsName w then decidable_of_iff _ (isPlain_iff hname).symm
  else isFalse fun hplain => hname hplain.isName

/-- A piece of a declaration up to the name. -/
inductive Mark where
  | word (w : List Char) (plain : IsPlain w)
  | modifier (m : Modifier)
  | star
  | blank (c : Char) (isBlank : isBlank c = true)

namespace Mark

def text : Mark → List Char
  | word w _ => w
  | modifier m => m.text
  | star => ['*']
  | blank c _ => [c]

def word? : Mark → Option (List Char)
  | word w _ => some w
  | _ => none

def modifier? : Mark → Option Modifier
  | modifier m => some m
  | _ => none

/-- Whether it is a run of word characters. -/
def isRun : Mark → Bool
  | word _ _ | modifier _ => true
  | _ => false

/-- What is left of it without modifiers. -/
def kept : Mark → List Char
  | modifier _ => [' ']
  | m => m.text

/-- What is left of it without modifiers and stars. -/
def left : Mark → List Char
  | word w _ => w
  | blank c _ => [c]
  | _ => [' ']

/-- A run of word characters, or else one character of another kind. -/
theorem text_cases (m : Mark) :
    (m.isRun = true ∧ m.text ≠ [] ∧ ∀ c ∈ m.text, isWord c = true) ∨
      (m.isRun = false ∧ ∃ c, m.text = [c] ∧ isWord c = false) := by
  cases m with
  | word w plain =>
      refine .inl ⟨rfl, ?_, plain.isName.word⟩
      obtain ⟨first, rest, rfl, _⟩ := plain.isName
      exact List.cons_ne_nil first rest
  | modifier m => exact .inl ⟨rfl, m.text_ne_nil, m.text_word⟩
  | star => exact .inr ⟨rfl, '*', rfl, by decide +kernel⟩
  | blank c isBlank => exact .inr ⟨rfl, c, rfl, isWord_of_blank isBlank⟩

/-- Characters of no word are stars and blanks. -/
theorem star_or_blank {m : Mark} {c : Char} (h : c ∈ m.text) (hc : isWord c = false) :
    (m = star ∧ c = '*') ∨ Text.isBlank c = true := by
  cases m with
  | star => exact .inl ⟨rfl, List.mem_singleton.mp h⟩
  | blank d isBlank =>
      rw [List.mem_singleton.mp h]
      exact .inr isBlank
  | word w plain => exact absurd (plain.isName.word c h) (by simp [hc])
  | modifier m => exact absurd (m.text_word c h) (by simp [hc])

theorem runs_text (m : Mark) : runs m.text = [(m.isRun, m.text)] := by
  rcases m.text_cases with ⟨hrun, hne, hword⟩ | ⟨hrun, c, htext, hc⟩
  · rw [hrun, runs_word hne hword]
  · rw [hrun, htext, runs_of_not_word hc]
    rfl

end Mark

/-- No two runs of word characters touch. -/
def Separate (ms : List Mark) : Prop :=
  ms.IsChain fun a b => ¬ (a.isRun = true ∧ b.isRun = true)

def textOf (ms : List Mark) : List Char := ms.flatMap Mark.text

theorem Separate.tail {m : Mark} {ms : List Mark} (h : Separate (m :: ms)) : Separate ms :=
  List.IsChain.tail h

theorem Separate.head_text {m : Mark} {ms : List Mark} (h : Separate (m :: ms))
    (hrun : m.isRun = true) {rest : List Char} (hrest : ∀ d ∈ rest.head?, isWord d = false) :
    ∀ d ∈ (textOf ms ++ rest).head?, isWord d = false := by
  cases ms with
  | nil => exact hrest
  | cons next ms =>
      rcases next.text_cases with ⟨hnext, _⟩ | ⟨_, c, htext, hc⟩
      · have htouch := (List.isChain_cons_cons.mp h).1
        exact absurd ⟨hrun, hnext⟩ htouch
      · rw [textOf, List.flatMap_cons, htext]
        rintro d ⟨⟩
        exact hc

theorem Separate.parted {m : Mark} {ms : List Mark} (h : Separate (m :: ms)) {rest : List Char}
    (hrest : ∀ d ∈ rest.head?, isWord d = false) : Parted isWord m.text (textOf ms ++ rest) := by
  rcases m.text_cases with ⟨hrun, _⟩ | ⟨_, c, htext, hc⟩
  · exact .of_head (h.head_text hrun hrest)
  · apply Parted.of_last
    rw [htext]
    rintro d ⟨⟩
    exact hc

/-- The runs of a declaration are its marks. -/
theorem runs_textOf {ms : List Mark} (h : Separate ms) {rest : List Char}
    (hrest : ∀ d ∈ rest.head?, isWord d = false) :
    runs (textOf ms ++ rest) = ms.map (fun m => (m.isRun, m.text)) ++ runs rest := by
  induction ms with
  | nil => rfl
  | cons m ms ih =>
      have hcut : textOf (m :: ms) ++ rest = m.text ++ (textOf ms ++ rest) := by
        rw [textOf, List.flatMap_cons, List.append_assoc]
        rfl
      rw [hcut, runs_append (h.parted hrest), m.runs_text, ih h.tail]
      rfl

end KernelLaunch.Signature
