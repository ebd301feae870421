import KernelLaunch.Kernel.Basic
import KernelLaunch.Proofs.Signature.Named
import KernelLaunch.Proofs.Signature.Substitution

/-!
User-defined element types. A type name unknown to the kernel language is kept, and the
caller defines its element type. But one or two trailing digits are always stripped as a
vector width, so such a name is cut and may collide with another type.
-/

namespace KernelLaunch.Signature

open Host Text

/-- The name of a type that is none of the kernel language, also with a vector width. -/
structure IsUserType (t : String) : Prop where
  plain : IsPlain t.toList
  unknown : ∀ known ∈ ElementType.kernelTypes, ∀ width ∈ ["", "2", "3", "4", "8", "16"],
    t ≠ known.1 ++ width

/-- Whether one or two digits end a name, after a letter or an underscore. -/
def EndsInWidth (t : String) : Prop :=
  ∃ base c digits, isNameStart c = true ∧ IsWidth digits ∧ t.toList = base ++ c :: digits

theorem dropWidth_eq_iff {t : String} : dropWidth t.toList = t.toList ↔ ¬ EndsInWidth t := by
  constructor
  · rintro hsame ⟨base, c, digits, hc, width, hcut⟩
    have hlength := congrArg List.length (dropWidth_cut base hc width)
    rw [← hcut, hsame, hcut] at hlength
    simp only [List.length_append, List.length_cons, List.length_nil] at hlength
    have hdigits := width.1
    omega
  · intro hends
    exact dropWidth_whole fun base c digits hc width hcut =>
      hends ⟨base, c, digits, hc, width, hcut⟩

instance (t : String) : Decidable (EndsInWidth t) :=
  decidable_of_iff (¬ dropWidth t.toList = t.toList) (by rw [dropWidth_eq_iff, not_not])

instance (t : String) : Decidable (IsUserType t) :=
  decidable_of_iff (IsPlain t.toList ∧ ∀ known ∈ ElementType.kernelTypes,
      ∀ width ∈ ["", "2", "3", "4", "8", "16"], t ≠ known.1 ++ width)
    ⟨fun h => ⟨h.1, h.2⟩, fun h => ⟨h.plain, h.unknown⟩⟩

/-- The parameter that points to elements of a type, from a type and a name. -/
def pointerTo (declared : String × String) : Parameter :=
  .ofDeclaration ("global " ++ declared.1 ++ " *" ++ declared.2)

/-- The pointer parameter declared by a type and a name. -/
structure Declares (declared : String × String) (p : Parameter) : Prop where
  sourceType : WithoutWidth declared.1.toList p.sourceType.toList
  /-- The type keeps its name only without digits that look like a width. -/
  kept : p.sourceType = declared.1 ↔ ¬ EndsInWidth declared.1
  elementType : ¬ EndsInWidth declared.1 → p.elementType = declared.1

section Declared

variable {t x : String}

theorem global_mem_qualifiers : "global" ∈ qualifiers := by decide +kernel

/-- What stands before the name in the parameter. -/
def pointerMarks (ht : IsPlain t.toList) : List Mark :=
  [.modifier (.qualifier "global" global_mem_qualifiers false), .blank ' ' rfl,
    .word t.toList ht, .blank ' ' rfl, .star]

theorem separate_pointerMarks (ht : IsPlain t.toList) (hx : IsPlain x.toList) :
    Separate (pointerMarks ht ++ [.word x.toList hx]) := by
  simp [pointerMarks, Separate, Mark.isRun]

/-- The written form of the parameter. -/
def pointerDeclaration (ht : IsPlain t.toList) (hx : IsPlain x.toList) : Declaration where
  marks := pointerMarks ht
  name := x.toList
  plain := hx
  suffixes := []
  separate := separate_pointerMarks ht hx
  typed := List.cons_ne_nil _ _

theorem pointerDeclaration_text (ht : IsPlain t.toList) (hx : IsPlain x.toList) :
    String.ofList (pointerDeclaration ht hx).text = "global " ++ t ++ " *" ++ x := by
  rw [← String.toList_inj]
  simp [pointerDeclaration, pointerMarks, Declaration.text, textOf, Mark.text, Modifier.text,
    suffixText]

theorem IsUserType.lookup (h : IsUserType t) : ElementType.kernelTypes.lookup t = none := by
  rw [List.lookup_eq_none_iff]
  intro known hknown
  have hne := h.unknown known hknown "" (by simp)
  rw [String.append_empty] at hne
  simpa using hne

/-- A name that the kernel language does not know stands for itself. -/
theorem IsUserType.elementType (h : IsUserType t) : ElementType.ofKernelType t = t := by
  have hsingle : ∀ w ∈ [t.toList], Source.IsName w := by
    intro w hw
    rw [List.mem_singleton.mp hw]
    exact h.plain.isName
  have hcollapse : collapse t.toList = t.toList := collapse_joinWith (notBlank_of_names hsingle)
  rw [ElementType.ofKernelType, hcollapse, String.ofList_toList, h.lookup]
  rfl

theorem typeOf_pointer (ht : IsPlain t.toList) (hx : IsPlain x.toList) :
    typeOf ("global " ++ t ++ " *" ++ x) = String.ofList (dropWidth t.toList) := by
  rw [typeOf, ← pointerDeclaration_text ht hx, String.toList_ofList, Declaration.typeAndName_eq]
  rfl

theorem pointerTo_declares (ht : IsUserType t) (hx : IsPlain x.toList) :
    Declares (t, x) (pointerTo (t, x)) := by
  obtain ⟨_, hsource, helement, _⟩ := ofDeclaration_fields ("global " ++ t ++ " *" ++ x)
  rw [typeOf_pointer ht.plain hx] at hsource helement
  have hkept : String.ofList (dropWidth t.toList) = t ↔ ¬ EndsInWidth t := by
    rw [← dropWidth_eq_iff, ← String.toList_inj, String.toList_ofList]
  constructor
  · rw [pointerTo, hsource, String.toList_ofList]
    exact withoutWidth_dropWidth t.toList
  · rw [pointerTo, hsource]
    exact hkept
  · intro hends
    rw [pointerTo, helement, hkept.mpr hends]
    exact ht.elementType

end Declared

/-- Parameters of types that users define can be told apart by their types. -/
structure Distinguished (declared : List (String × String)) : Prop where
  different : ∀ p ∈ declared, ∀ q ∈ declared, p.1 ≠ q.1 →
    (pointerTo p).elementType ≠ (pointerTo q).elementType
  /-- The caller says of any of the types, by their names in the source, what they are. -/
  mapped : ∀ (k : Kernel) (types : List Value) (given : List (String × String)),
    k.parameters = declared.map pointerTo →
    types.mapM ElementType.normalize = .ok (given.map Prod.snd) →
    (given.map Prod.fst).Nodup →
      k.defineTypes (.list types) (.list (given.map fun g => .atom (.text g.1))) =
        .ok { k with parameters := declared.map fun p =>
          { pointerTo p with elementType := (given.lookup p.1).getD p.1 } }

theorem distinguished_of_kept {declared : List (String × String)}
    (h : ∀ p ∈ declared, (pointerTo p).elementType = p.1) : Distinguished declared where
  different := by
    intro p hp q hq hne
    rw [h p hp, h q hq]
    exact hne
  mapped := by
    intro k types given hparameters htypes hnames
    have hmapped : (k.parameters.map fun p =>
        { p with elementType := (given.lookup p.elementType).getD p.elementType }) =
          declared.map fun p =>
            { pointerTo p with elementType := (given.lookup p.1).getD p.1 } := by
      rw [hparameters, List.map_map]
      apply List.map_congr_left
      intro p hp
      simp only [Function.comp_apply, h p hp]
    rw [Kernel.defineTypes, override_eq rfl rfl htypes hnames, hmapped]
    rfl

/-- Pointers to user-defined types keep the type name without trailing width digits, and are
told apart by it if there are none. -/
theorem pointers_to_userTypes {declared : List (String × String)}
    (h : ∀ p ∈ declared, IsUserType p.1 ∧ IsPlain p.2.toList) :
    (∀ p ∈ declared, Declares p (pointerTo p)) ∧
      ((∀ p ∈ declared, ¬ EndsInWidth p.1) → Distinguished declared) := by
  have hdeclares : ∀ p ∈ declared, Declares p (pointerTo p) := by
    intro p hp
    obtain ⟨htype, hname⟩ := h p hp
    exact pointerTo_declares htype hname
  refine ⟨hdeclares, ?_⟩
  intro hends
  apply distinguished_of_kept
  intro p hp
  exact (hdeclares p hp).elementType (hends p hp)

/-- A name without digits, and one with three of them, which are no width. -/
def sampleTypes : List (String × String) := [("real_t", "x"), ("vec123", "y")]

def sampleOfTypes : Kernel :=
  { interface := ⟨"f", "global real_t *x, global vec123 *y"⟩
    parameters := sampleTypes.map pointerTo
    source := .named "f.cl"
    device := none
    includes := []
    compilerOptions := [] }

theorem sampleTypes_distinguished :
    (∀ p ∈ sampleTypes, IsUserType p.1 ∧ IsPlain p.2.toList) ∧
      (∀ p ∈ sampleTypes, Declares p (pointerTo p)) ∧
      (∀ p ∈ sampleTypes, ¬ EndsInWidth p.1) ∧ Distinguished sampleTypes ∧
      (sampleOfTypes.defineTypes (.list [.text "float", .text "float64"])
          (.list [.text "vec123", .text "real_t"])).toOption.map (·.argumentTypes) =
        some ["inout double vector", "inout float vector"] := by
  have htypes : ∀ p ∈ sampleTypes, IsUserType p.1 ∧ IsPlain p.2.toList := by decide +kernel
  have hends : ∀ p ∈ sampleTypes, ¬ EndsInWidth p.1 := by decide +kernel
  obtain ⟨hdeclares, hdistinguished⟩ := pointers_to_userTypes htypes
  have hmapped := (hdistinguished hends).mapped sampleOfTypes [.text "float", .text "float64"]
    [("vec123", "float"), ("real_t", "double")] rfl rfl (by decide)
  refine ⟨htypes, hdeclares, hends, hdistinguished hends, ?_⟩
  refine (congrArg (fun k => k.toOption.map Kernel.argumentTypes) hmapped).trans ?_
  decide +kernel

/-- Two types become one if their names differ in digits that look like widths. -/
theorem widths_merge_types :
    IsUserType "key64" ∧ IsUserType "key32" ∧ IsPlain "x".toList ∧
      (pointerTo ("key64", "x")).sourceType ≠ "key64" ∧
      (pointerTo ("key64", "x")).elementType = "key" ∧
      (pointerTo ("key32", "x")).elementType = "key" := by
  decide +kernel

end KernelLaunch.Signature
