import KernelLaunch.Proofs.Signature.Named

/-!
Declarations without a name. The number of words that are left decides whether the last of
them is the name, so a name can be omitted after a type of one word only: of a longer type
the last word is taken for the name, and the type is cut.
-/

namespace KernelLaunch.Signature

open Text

/-- What stands before the name. Blanks next to the name may go with it. -/
def Precedes (ms : List Mark) (d : Declaration) : Prop :=
  ∃ gap : List Mark, d.marks = ms ++ gap ∧ ∀ m ∈ gap, ∃ c isBlank, m = .blank c isBlank

/-- The written form of a declaration whose name is omitted. -/
def namelessText (ms : List Mark) (d : Declaration) : String :=
  String.ofList (textOf ms ++ suffixText d.suffixes)

/-- The parameter parsed from a declaration without its name, against the one parsed
with it. -/
structure OmitsName (d : Declaration) (nameless named : Parameter) : Prop where
  shape : nameless.shape = named.shape
  direction : nameless.direction = named.direction
  /-- The rest is the same, too, just where the type is a single word. -/
  unnamed : nameless = { named with name := "" } ↔ d.words.length = 1
  /-- Else the type loses its last word to the name. -/
  taken : ∀ before last, d.words = before ++ [last] → before ≠ [] →
    nameless.name = String.ofList last ∧
      WithoutWidth (joinWith [' '] before) nameless.sourceType.toList

namespace Precedes

variable {ms : List Mark} {d : Declaration}

theorem separate (h : Precedes ms d) : Separate ms := by
  obtain ⟨gap, hmarks, _⟩ := h
  have hseparate := d.separate
  rw [hmarks, List.append_assoc] at hseparate
  exact List.IsChain.left_of_append hseparate

theorem words_eq (h : Precedes ms d) : ms.filterMap Mark.word? = d.words := by
  obtain ⟨gap, hmarks, hgap⟩ := h
  have hnone : gap.filterMap Mark.word? = [] := by
    apply List.filterMap_eq_nil_iff.mpr
    intro m hm
    obtain ⟨c, isBlank, rfl⟩ := hgap m hm
    rfl
  rw [Declaration.words, hmarks, List.filterMap_append, hnone, List.append_nil]

theorem typeWords_eq (h : Precedes ms d) : typeWords (namelessText ms d).toList = d.words := by
  rw [namelessText, String.toList_ofList, typeWords_text h.separate, h.words_eq]

/-- A name and the blanks before it promise nothing. -/
theorem isReadOnly_eq (h : Precedes ms d) :
    isReadOnly (namelessText ms d) = isReadOnly (String.ofList d.text) := by
  obtain ⟨gap, hmarks, hgap⟩ := id h
  have hnone : (gap ++ [Mark.word d.name d.plain]).filterMap Mark.modifier? = [] := by
    apply List.filterMap_eq_nil_iff.mpr
    intro m hm
    rcases List.mem_append.mp hm with hm | hm
    · obtain ⟨c, isBlank, rfl⟩ := hgap m hm
      rfl
    · rw [List.mem_singleton.mp hm]
      rfl
  rw [Bool.eq_iff_iff, namelessText, isReadOnly_text h.separate, Declaration.text,
    isReadOnly_text d.separate, hmarks, List.append_assoc, List.filterMap_append, hnone,
    List.append_nil]

theorem isPointer_eq (h : Precedes ms d) :
    isPointer (namelessText ms d) = isPointer (String.ofList d.text) := by
  obtain ⟨gap, hmarks, hgap⟩ := h
  have hnone : Mark.star ∉ gap ++ [Mark.word d.name d.plain] := by
    intro hstar
    rcases List.mem_append.mp hstar with hstar | hstar
    · obtain ⟨c, isBlank, heq⟩ := hgap _ hstar
      cases heq
    · cases List.mem_singleton.mp hstar
  rw [Bool.eq_iff_iff, namelessText, isPointer_text, Declaration.text, isPointer_text, hmarks,
    List.append_assoc, List.mem_append, or_iff_left hnone]

end Precedes

/-- A declaration without a name parses to the same parameter but for the name if its type is
a single word, and only then. -/
theorem Declaration.ofDeclaration_nameless (d : Declaration) {ms : List Mark}
    (h : Precedes ms d) :
    OmitsName d (.ofDeclaration (namelessText ms d)) (.ofDeclaration (String.ofList d.text)) := by
  have hwords := h.typeWords_eq
  have htaken : ∀ before last, d.words = before ++ [last] → before ≠ [] →
      typeAndName (namelessText ms d).toList = (joinWith [' '] before, last) := by
    intro before last hcut hne
    apply typeAndName_several _ hne
    rw [hwords, hcut]
  obtain ⟨hname, hsource, _⟩ := ofDeclaration_fields (namelessText ms d)
  constructor
  · simp only [Parameter.ofDeclaration, Parameter.ofSourceType, h.isPointer_eq]
  · simp only [Parameter.ofDeclaration, Parameter.ofSourceType, h.isReadOnly_eq]
  · constructor
    · intro heq
      rcases List.eq_nil_or_concat d.words with hnil | ⟨before, last, hcut⟩
      · exact absurd hnil d.typed
      · rw [List.concat_eq_append] at hcut
        by_cases hne : before = []
        · simp [hcut, hne]
        · -- The name would be the last word of the type, which is not empty.
          have hempty := congrArg Parameter.name heq
          rw [hname, htaken before last hcut hne] at hempty
          have hmem : last ∈ d.words := by
            simp [hcut]
          obtain ⟨first, rest, hlast, _⟩ := (d.isPlain_of_mem hmem).isName
          simp [hlast] at hempty
    · intro hlength
      obtain ⟨only, honly⟩ := List.length_eq_one_iff.mp hlength
      have hnameless : typeAndName (namelessText ms d).toList = (only, []) :=
        typeAndName_single (hwords.trans honly)
      have hnamed : typeAndName (String.ofList d.text).toList = (only, d.name) := by
        rw [String.toList_ofList, d.typeAndName_eq, honly]
        rfl
      simp only [Parameter.ofDeclaration, Parameter.ofSourceType, typeOf, h.isReadOnly_eq,
        h.isPointer_eq, hnameless, hnamed]
  · intro before last hcut hne
    constructor
    · rw [hname, htaken before last hcut hne]
    · rw [hsource, typeOf, String.toList_ofList, htaken before last hcut hne]
      exact withoutWidth_dropWidth _

theorem const_mem_qualifiers : "const" ∈ qualifiers := by decide +kernel

/-- A declaration with a star between type and name, and its name left out together with the
blank before it. -/
def sampleNamed : Declaration where
  marks :=
    [.modifier (.qualifier "const" const_mem_qualifiers false), .blank ' ' isBlank_space,
      .word "float4".toList isPlain_float4, .star, .blank ' ' isBlank_space]
  name := "constants".toList
  plain := isPlain_constants
  suffixes := []
  separate := by
    unfold Separate
    decide +kernel
  typed := by decide +kernel

theorem sampleNamed_nameless :
    Precedes (sampleNamed.marks.take 4) sampleNamed ∧
      namelessText (sampleNamed.marks.take 4) sampleNamed = "const float4*" ∧
      OmitsName sampleNamed (.ofDeclaration "const float4*")
        (.ofDeclaration "const float4* constants") ∧
      sampleNamed.words.length = 1 := by
  have hprecedes : Precedes (sampleNamed.marks.take 4) sampleNamed :=
    ⟨[.blank ' ' isBlank_space], rfl, fun m hm => ⟨' ', isBlank_space, List.mem_singleton.mp hm⟩⟩
  have htext : namelessText (sampleNamed.marks.take 4) sampleNamed = "const float4*" := by
    decide +kernel
  have hnamed : String.ofList sampleNamed.text = "const float4* constants" := by decide +kernel
  have homits := sampleNamed.ofDeclaration_nameless hprecedes
  rw [htext, hnamed] at homits
  exact ⟨hprecedes, htext, homits, by decide⟩

/-- The type `unsigned char` without a name is `unsigned`, with another element type, and the
parameter is called `char`. -/
theorem second_word_becomes_name :
    ("unsigned char", "uint8") ∈ ElementType.kernelTypes ∧
      Parameter.ofDeclaration "unsigned char *x" =
        ⟨"x", .inout, .vector, "unsigned char", "uint8"⟩ ∧
      Parameter.ofDeclaration "unsigned char *" =
        ⟨"char", .inout, .vector, "unsigned", "uint32"⟩ := by
  decide +kernel

end KernelLaunch.Signature
