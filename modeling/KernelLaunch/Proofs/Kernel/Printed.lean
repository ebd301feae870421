import KernelLaunch.Kernel.Load
import KernelLaunch.Proofs.Except
import KernelLaunch.Proofs.Signature.Spacing
import KernelLaunch.Proofs.Source.Found
import KernelLaunch.Proofs.Source.Plain
import KernelLaunch.Proofs.Source.Spacing

/-!
Reparsing of printed declarations. The parameter list of a kernel from a quote-free source
contains nothing that reads as a comment, so the printed declaration is searched as it is;
its own kernel is found in it, and any other header inside its parameter list has another
name.
-/

namespace KernelLaunch

open Signature Source Text

namespace Source

section Printed

/-- The header of a printed declaration. -/
def printedHeader (name : List Char) (named : IsName name) : Header where
  marks := []
  afterKernel := [' ']
  afterVoid := [' ']
  name
  afterName := []
  marked := .inl rfl
  blankKernel := ⟨by simp, blank_space⟩
  blankVoid := ⟨by simp, blank_space⟩
  named
  blankName := by simp

namespace Interface

/-- An interface with single spaces between the words of its parameter list. -/
def spaced (i : Interface) : Interface := ⟨i.name, String.ofList (collapse i.signature.toList)⟩

/-- A declaration as it is printed. -/
def printed (i : Interface) : List Char :=
  "kernel void ".toList ++ (i.key.1.toList ++ '(' :: (i.key.2 ++ [')']))

variable (i : Interface)

theorem key_spaced : i.spaced.key = i.key := by
  simp [key, spaced, collapse_again]

theorem printed_spaced : i.spaced.printed = i.printed := by
  unfold printed
  rw [key_spaced]

theorem printed_eq (h : IsName i.name.toList) :
    i.printed =
      (printedHeader i.name.toList h).text ++ (collapse i.signature.toList ++ ')' :: []) := by
  have htext : (printedHeader i.name.toList h).text =
      "kernel void ".toList ++ (i.name.toList ++ ['(']) := rfl
  unfold printed
  rw [htext, List.append_assoc, List.append_assoc, List.singleton_append, key]

variable {i : Interface}

theorem isPlain_printed (hname : IsName i.name.toList) (hplain : IsPlain i.signature.toList) :
    IsPlain i.printed := by
  have hbefore : IsPlain ("kernel void ".toList ++ i.name.toList) := by
    apply IsPlain.of_words
    intro c hc
    rcases List.mem_append.mp hc with hc | hc
    · have hwords : ∀ d ∈ "kernel void ".toList, isWord d = true ∨ isBlank d = true := by
        simp [isWord, isLatin, isBlank]
      exact hwords c hc
    · exact .inl (hname.word c hc)
  have hspaced : IsPlain (' ' :: collapse i.signature.toList) :=
    (IsPlain.append_cons (by decide) .nil hplain).respaced (respaced_collapse _)
  have hlist : IsPlain (collapse i.signature.toList) :=
    hspaced.part (List.suffix_cons _ _).isInfix
  have hafter : IsPlain (collapse i.signature.toList ++ [')']) :=
    .append_cons (by decide) hlist .nil
  have hall := IsPlain.append_cons (c := '(') (by decide) hbefore hafter
  rwa [List.append_assoc] at hall

theorem newline_not_mem_printed (hname : IsName i.name.toList) : '\n' ∉ i.printed := by
  unfold printed
  rw [List.mem_append, List.mem_append, List.mem_cons, List.mem_append]
  rintro (hmem | hmem | hmem | hmem | hmem)
  · revert hmem
    decide
  · have hword := hname.word _ hmem
    revert hword
    decide
  · cases hmem
  · have hspace := eq_space_of_mem_collapse hmem (by decide)
    cases hspace
  · simp at hmem

/-- Nothing in a printed line is a comment, a literal or a directive. -/
theorem code_printed (hname : IsName i.name.toList) (hplain : IsPlain i.signature.toList) :
    code i.printed = i.printed := by
  refine code_line (isPlain_printed hname hplain) (newline_not_mem_printed hname) ?_
  unfold printed
  rfl

/-- A printed line declares its kernel, and what its parameter list declares. -/
theorem declaredFrom_printed (hname : IsName i.name.toList) (hlist : IsList i.signature.toList) :
    declaredFrom false i.printed =
      i.spaced :: declaredFrom false (collapse i.signature.toList) := by
  have hspaced : IsList (collapse i.signature.toList) :=
    hlist.of_visible (visible_collapse _).symm
  have hfirst : interface? i.printed = some i.spaced := by
    rw [i.printed_eq hname]
    refine interface?_eq_some_iff.mpr
      ⟨printedHeader i.name.toList hname, collapse i.signature.toList, [], rfl, hspaced, ?_⟩
    simp [spaced, printedHeader]
  have htext := (printedHeader i.name.toList hname).declaredFrom_text
    (collapse i.signature.toList ++ ')' :: [])
  rw [← i.printed_eq hname, hfirst, hspaced.declaredFrom] at htext
  simpa [declaredFrom] using htext

/-- The kernel of a printed line is the only one of its name if it was so in its parameter
list. -/
theorem select_printed (hname : IsName i.name.toList) (hlist : IsList i.signature.toList)
    (hothers : ∀ j ∈ declaredFrom false i.signature.toList, j.name ≠ i.name) :
    select (some i.name) (kernels i.printed) = .ok i.spaced := by
  have hrest : ∀ j ∈ declaredFrom false (collapse i.signature.toList), j.name ≠ i.name := by
    intro j hj
    have hkey : j.key ∈ (declaredFrom false i.signature.toList).map Interface.key := by
      rw [← map_key_collapse]
      exact List.mem_map_of_mem hj
    obtain ⟨j', hj', heq⟩ := List.mem_map.mp hkey
    have hsame : j'.name = j.name := congrArg Prod.fst heq
    rw [← hsame]
    exact hothers j' hj'
  have hnone : (distinctFrom [i.spaced.key]
      (declaredFrom false (collapse i.signature.toList))).filter (·.name == i.name) = [] := by
    rw [List.filter_eq_nil_iff]
    intro j hj
    have hne := hrest j ((distinctFrom_sublist _ _).mem hj)
    simpa using hne
  rw [select_ok_iff, kernels, declaredFrom_printed hname hlist, distinctFrom, if_neg (by simp),
    isMeant_some, List.filter_cons_of_pos (by simp [spaced]), hnone]

end Interface

/-- A kernel that has been chosen in a source without quotes is chosen in what it prints. -/
theorem interface_printed {name : Option String} {source : String} {i : Interface}
    (hquotes : '"' ∉ source.toList ∧ '\'' ∉ source.toList)
    (h : interface name source = .ok i) :
    interface (some i.name) (String.ofList i.printed) = .ok i.spaced := by
  obtain ⟨place, hplace⟩ := declaresAt_of_chosen h
  have hothers : ∀ j ∈ declaredFrom false i.signature.toList, j.name ≠ i.name := by
    intro j hj hname
    obtain ⟨other, hother⟩ := hplace.nested hj
    exact key_ne_of_nested hj (key_eq_of_chosen h hother hname)
  obtain ⟨before, head, s, rest, heq, _, _, hlist, rfl⟩ := hplace
  have hplain : IsPlain s := (isPlain_code hquotes).part
    ⟨before ++ head.text, ')' :: rest, by simp [heq]⟩
  have hname : IsName (Interface.name ⟨String.ofList head.name, String.ofList s⟩).toList := by
    simpa using head.named
  rw [interface, String.toList_ofList,
    Interface.code_printed hname (by simpa using hplain)]
  exact Interface.select_printed hname (by simpa using hlist) hothers

end Printed

end Source

namespace Kernel

theorem declaration_eq (k : Kernel) : k.declaration = String.ofList k.interface.printed := by
  unfold declaration Interface.printed name
  rw [← String.toList_inj, String.toList_ofList]
  simp only [String.toList_append, String.toList_ofList, List.append_assoc]
  rfl

/-- The kernel that a source makes of a declaration, for some device. -/
def made (loaded : LoadedSource) (i : Interface) (device : Option Device) : Kernel where
  interface := i
  parameters := Parameter.ofSignature i.signature
  source := loaded.place
  device
  includes := loaded.includes.map .text
  compilerOptions := defaultOptions

@[simp] theorem made_interface (loaded : LoadedSource) (i : Interface) (device : Option Device) :
    (made loaded i device).interface = i := rfl

@[simp] theorem made_parameters (loaded : LoadedSource) (i : Interface) (device : Option Device) :
    (made loaded i device).parameters = Parameter.ofSignature i.signature := rfl

theorem ofSource_ok_iff {loaded : LoadedSource} {name : Option String}
    {make : Option Device → Kernel} :
    ofSource loaded name = .ok make ↔
      ∃ i, Source.interface name loaded.text = .ok i ∧ make = made loaded i := by
  rw [ofSource, Steps.bind_ok_iff]
  constructor
  · rintro ⟨i, hi, hmake⟩
    exact ⟨i, hi, (Except.ok.inj hmake).symm⟩
  · rintro ⟨i, hi, rfl⟩
    exact ⟨i, hi, rfl⟩

/-- The printed declaration of a kernel reparses to the same kernel. -/
structure Reprints (k : Kernel) : Prop where
  /-- The kernel is found by its name, with single spaces in its parameter list. -/
  found : Source.interface (some k.name) k.declaration =
    .ok ⟨k.name, String.ofList (collapse k.interface.signature.toList)⟩
  parameters : Parameter.ofSignature
    (String.ofList (collapse k.interface.signature.toList)) = k.parameters
  /-- Every kernel that is made from this text and name prints it again. -/
  again : ∀ (loaded : LoadedSource) (device : Option Device), loaded.text = k.declaration →
    ∃ make, ofSource loaded (some k.name) = .ok make ∧
      (make device).declaration = k.declaration ∧ (make device).parameters = k.parameters

/-- Every kernel from a quote-free source reparses from its printed declaration. -/
theorem ofSource_reprints {loaded : LoadedSource} {name : Option String}
    {make : Option Device → Kernel} (h : ofSource loaded name = .ok make)
    (hquotes : '"' ∉ loaded.text.toList ∧ '\'' ∉ loaded.text.toList) (device : Option Device) :
    Reprints (make device) := by
  obtain ⟨i, hi, rfl⟩ := ofSource_ok_iff.mp h
  have hfound := interface_printed hquotes hi
  have hparameters : Parameter.ofSignature (String.ofList (collapse i.signature.toList)) =
      Parameter.ofSignature i.signature := by
    rw [ofSignature_collapse, String.ofList_toList]
  constructor
  case found =>
    rw [declaration_eq]
    exact hfound
  case parameters =>
    rw [made_interface, made_parameters, hparameters]
  case again =>
    intro other onDevice hother
    rw [declaration_eq, made_interface] at hother
    rw [← hother] at hfound
    refine ⟨made other i.spaced, ofSource_ok_iff.mpr ⟨i.spaced, hfound, rfl⟩, ?_, ?_⟩
    · rw [declaration_eq, declaration_eq, made_interface, made_interface, Interface.printed_spaced]
    · rw [made_parameters, made_parameters, Interface.spaced, hparameters]

/-- A kernel with a comment, a directive and another header in its parameter list. -/
def sampleSource : LoadedSource where
  place := .named "f.cl"
  text := "kernel void f(int a, // one\n#define N\n int b[kernel void g(int) ])\n{}"
  includes := []

theorem sampleSource_reprints :
    ∃ make, ofSource sampleSource (some "f") = .ok make ∧
      ('"' ∉ sampleSource.text.toList ∧ '\'' ∉ sampleSource.text.toList) ∧
      (make none).declaration = "kernel void f(int a, int b[kernel void g(int) ])" ∧
      Reprints (make none) := by
  have hi : Source.interface (some "f") sampleSource.text =
      .ok ⟨"f", "int a, \n int b[kernel void g(int) ]"⟩ := by rfl
  have hmake := ofSource_ok_iff.mpr ⟨_, hi, rfl⟩
  have hquotes : '"' ∉ sampleSource.text.toList ∧ '\'' ∉ sampleSource.text.toList := by decide
  exact ⟨_, hmake, hquotes, by rfl, ofSource_reprints hmake hquotes none⟩

end Kernel

end KernelLaunch
