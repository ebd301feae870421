import KernelLaunch.Proofs.Signature.Declared
import KernelLaunch.Proofs.Signature.Width
import KernelLaunch.Signature.Parameter

/-!
Declarations with a name. The main statement is that a parameter is just what its
declaration says, however the modifiers, stars and blanks are mixed and wherever
words merely look like a qualifier.
-/

namespace KernelLaunch.Signature

open Text

/-- The written form of a declaration: marks with a type among them, the name, and
what follows it. -/
structure Declaration where
  marks : List Mark
  name : List Char
  plain : IsPlain name
  suffixes : List Suffix
  separate : Separate (marks ++ [.word name plain])
  typed : marks.filterMap Mark.word? ≠ []

namespace Declaration

variable (d : Declaration)

def text : List Char := textOf (d.marks ++ [.word d.name d.plain]) ++ suffixText d.suffixes

/-- The words of its type. -/
def words : List (List Char) := d.marks.filterMap Mark.word?

def modifiers : List Modifier := d.marks.filterMap Mark.modifier?

theorem typeWords_eq : typeWords d.text = d.words ++ [d.name] := by
  rw [text, typeWords_text d.separate, List.filterMap_append]
  rfl

theorem typeAndName_eq : typeAndName d.text = (joinWith [' '] d.words, d.name) :=
  typeAndName_several d.typeWords_eq d.typed

theorem isPlain_of_mem {w : List Char} (h : w ∈ d.words) : IsPlain w := by
  obtain ⟨m, _, hword⟩ := List.mem_filterMap.mp h
  cases m with
  | word v plain =>
      cases hword
      exact plain
  | _ => cases hword

end Declaration

/-- Names between spaces are words. -/
theorem notBlank_of_names {ws : List (List Char)} (h : ∀ w ∈ ws, Source.IsName w) :
    ∀ w ∈ ws, w ≠ [] ∧ ∀ c ∈ w, isBlank c = false := by
  intro w hw
  refine ⟨?_, fun c hc => isBlank_of_word ((h w hw).word c hc)⟩
  obtain ⟨first, rest, rfl, _⟩ := h w hw
  exact List.cons_ne_nil first rest

theorem ofDeclaration_fields (s : String) :
    (Parameter.ofDeclaration s).name = String.ofList (typeAndName s.toList).2 ∧
    (Parameter.ofDeclaration s).sourceType = typeOf s ∧
    (Parameter.ofDeclaration s).elementType = ElementType.ofKernelType (typeOf s) ∧
    ((Parameter.ofDeclaration s).shape = .vector ↔ isPointer s = true) ∧
    ((Parameter.ofDeclaration s).direction = .input ↔ isReadOnly s = true) := by
  unfold Parameter.ofDeclaration Parameter.ofSourceType
  dsimp only
  refine ⟨rfl, rfl, rfl, ?_, ?_⟩
  · cases isPointer s <;> simp
  · cases isReadOnly s <;> simp

/-- A parameter has the name, type, direction and shape that its declaration states. -/
structure Recovers (d : Declaration) (p : Parameter) : Prop where
  name : p.name = String.ofList d.name
  /-- The words of the type with a space between each two, without vector width. -/
  sourceType : WithoutWidth (joinWith [' '] d.words) p.sourceType.toList
  /-- The canonical name in the table, or else the type as it is. -/
  elementType : p.elementType = (ElementType.kernelTypes.lookup p.sourceType).getD p.sourceType
  shape : p.shape = .vector ↔ Mark.star ∈ d.marks ∨ ∃ s ∈ d.suffixes, s.isSize = true
  direction : p.direction = .input ↔ ∃ m ∈ d.modifiers, m.readsOnly = true

namespace Declaration

variable (d : Declaration)

/-- The width goes with the last word, so names are left. -/
theorem typeOf_eq : ∃ ws : List (List Char), (∀ w ∈ ws, Source.IsName w) ∧
    (typeOf (String.ofList d.text)).toList = joinWith [' '] ws ∧
    WithoutWidth (joinWith [' '] d.words) (joinWith [' '] ws) := by
  rcases List.eq_nil_or_concat d.words with hnil | ⟨before, last, hwords⟩
  · exact absurd hnil d.typed
  · rw [List.concat_eq_append] at hwords
    have hnames : ∀ w ∈ before ++ [last], Source.IsName w := fun w hw =>
      (d.isPlain_of_mem (hwords ▸ hw)).isName
    have hlast := withoutWidth_dropWidth last
    have hname := hnames last (by simp)
    have hcut := hlast.append hname (before.flatMap (· ++ [' ']))
    rw [← joinWith_snoc, ← joinWith_snoc] at hcut
    refine ⟨before ++ [dropWidth last], ?_, ?_, ?_⟩
    · intro w hw
      rcases List.mem_append.mp hw with hw | hw
      · exact hnames w (List.mem_append_left _ hw)
      · rw [List.mem_singleton.mp hw]
        exact hlast.isName hname
    · rw [typeOf, String.toList_ofList, String.toList_ofList, typeAndName_eq, hwords]
      exact hcut.eq_dropWidth.symm
    · rw [hwords]
      exact hcut

/-- Every declaration with a name is parsed to the parameter that it states. -/
theorem ofDeclaration_text : Recovers d (Parameter.ofDeclaration (String.ofList d.text)) := by
  obtain ⟨ws, hnames, htype, hwidth⟩ := d.typeOf_eq
  obtain ⟨hname, hsource, helement, hshape, hdirection⟩ :=
    ofDeclaration_fields (String.ofList d.text)
  constructor
  · rw [hname, String.toList_ofList, typeAndName_eq]
  · rw [hsource, htype]
    exact hwidth
  · rw [helement, hsource, ElementType.ofKernelType, htype,
      collapse_joinWith (notBlank_of_names hnames), ← htype, String.ofList_toList]
  · rw [hshape, text, isPointer_text, List.mem_append]
    simp
  · rw [hdirection, text, isReadOnly_text d.separate, List.filterMap_append]
    simp [modifiers, Mark.modifier?]

end Declaration

theorem isPlain_float4 : IsPlain "float4".toList :=
  (isPlain_iff ⟨'f', "loat4".toList, by decide +kernel, by decide,
    List.all_eq_true.mp (by decide +kernel)⟩).mpr (by decide +kernel)

theorem isPlain_constants : IsPlain "constants".toList :=
  (isPlain_iff ⟨'c', "onstants".toList, by decide +kernel, by decide,
    List.all_eq_true.mp (by decide +kernel)⟩).mpr (by decide +kernel)

/-- A declaration whose name looks like a qualifier. -/
def sampleDeclaration : Declaration where
  marks :=
    [.modifier (.qualifier "global" (by decide +kernel) true), .blank ' ' (by decide),
      .word "float4".toList isPlain_float4, .blank '\t' (by decide),
      .modifier (.attr "x".toList (by decide +kernel) (List.all_eq_true.mp (by decide +kernel))), .star,
      .modifier (.qualifier "const" (by decide +kernel) false), .blank ' ' (by decide)]
  name := "constants".toList
  plain := isPlain_constants
  suffixes := [.size "N*2".toList (by decide +kernel) (isSilent_iff.mpr (by decide +kernel))]
  separate := by
    unfold Separate
    decide +kernel
  typed := by decide +kernel

/-- It is a vector that is only read, of numbers of single precision. -/
theorem sampleDeclaration_recovers :
    String.ofList sampleDeclaration.text = "__global float4\t__x__*const constants[N*2]" ∧
      Recovers sampleDeclaration ⟨"constants", .input, .vector, "float", "float"⟩ := by
  have hrecovers := sampleDeclaration.ofDeclaration_text
  have htext : String.ofList sampleDeclaration.text =
      "__global float4\t__x__*const constants[N*2]" := by decide +kernel
  have hparameter : Parameter.ofDeclaration "__global float4\t__x__*const constants[N*2]" =
      ⟨"constants", .input, .vector, "float", "float"⟩ := by decide +kernel
  rw [htext, hparameter] at hrecovers
  exact ⟨htext, hrecovers⟩

end KernelLaunch.Signature
