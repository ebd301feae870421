import KernelLaunch.Proofs.Backend.ResultShapes
import KernelLaunch.Proofs.Kernel.ByPlace

/-!
Shapes of outputs over the OpenCL backend. Casting, splitting and joining keep the shape of
an argument, and so does the copy back from a buffer, except that a real argument without
dimensions for a vector parameter comes back with one.
-/

namespace KernelLaunch

open Host Signature Backend

namespace Backend.OpenCL

/-- The shapes of an argument and of the result in its place: the same, but that what is
read back has a dimension. -/
def ShapedAlike (item : Value × Bool) (result : Result) : Prop :=
  result.value.shape? =
    if item.2 = false ∧ item.1.shape? = some [] then some [1] else item.1.shape?

theorem Answers.shapedAlike {arg : Value} {readOnly : Bool} {result : Result}
    (h : Answers arg readOnly result) : ShapedAlike (arg, readOnly) result := by
  cases h with
  | itself => simp [ShapedAlike]
  | @copied t content _ collected shape holds =>
      have hshape := Value.shape?_of_collect collected
      rw [ShapedAlike, ← Value.shape?_content, holds, Value.shape?_ofTensor, shape,
        shape_dimensioned, hshape]
      simp only [true_and, Option.some.injEq]
      split <;> rfl

/-- The result for a tensor holds one too. -/
theorem Answers.exists_content {t : Tensor} {readOnly : Bool} {result : Result}
    (h : Answers (.ofTensor t) readOnly result) :
    ∃ content, result.value.content = .ofTensor content ∧
      (t.shape ≠ [] → content.shape = t.shape) := by
  cases h with
  | itself => exact ⟨t, rfl, fun _ => rfl⟩
  | @copied t' content _ collected shape holds =>
      cases collected
      refine ⟨content, holds, fun hdimension => ?_⟩
      rw [shape, shape_dimensioned]
      exact if_neg hdimension

end Backend.OpenCL

namespace Kernel

/-- A real argument without dimensions in the place of a vector. -/
def GainsDimension (p : Parameter) (arg : Value) : Prop :=
  p.shape = .vector ∧ arg.isComplex = .ok false ∧ arg.shape? = some []

/-- The shape in which an argument comes back. -/
structure ComesBack (p : Parameter) (arg : Value) (out : Result) : Prop where
  shaped : ∃ shape, arg.shape? = some shape
  kept : ¬ GainsDimension p arg → out.value.shape? = arg.shape?
  gained : GainsDimension p arg → out.value.shape? = some [1]

theorem comesBack_real {p : Parameter} {arg : Value} {t : Tensor} {readOnly : Bool}
    {result : Result} (hmarshalled : Marshalled p arg t) (hreal : arg.isComplex = .ok false)
    (hreadOnly : readOnly = true ↔ p.shape = .scalar)
    (hanswers : OpenCL.Answers (.ofTensor t) readOnly result) :
    ComesBack p arg ⟨result.value, false⟩ := by
  have hshape := hmarshalled.shape_real hreal
  have halike : result.value.shape? =
      if readOnly = false ∧ arg.shape? = some [] then some [1] else arg.shape? := by
    rw [hshape, ← Value.shape?_ofTensor]
    exact hanswers.shapedAlike
  have hvector : readOnly = false ↔ p.shape = .vector := by
    cases readOnly <;> cases hp : p.shape <;> simp_all
  refine ⟨⟨t.shape, hshape⟩, fun hnot => ?_, fun hgains => ?_⟩
  · rw [halike]
    exact if_neg fun h => hnot ⟨hvector.mp h.1, hreal, h.2⟩
  · rw [halike]
    exact if_pos ⟨hvector.mpr hgains.1, hgains.2.2⟩

theorem comesBack_complex {p : Parameter} {arg : Value} {t joined : Tensor} {readOnly : Bool}
    {result : Result} (hmarshalled : Marshalled p arg t) (hcomplex : arg.isComplex = .ok true)
    (hanswers : OpenCL.Answers (.ofTensor t) readOnly result)
    (hjoined : result.value.join = .ok joined) :
    ComesBack p arg ⟨.ofTensor joined, false⟩ := by
  obtain ⟨shape, hshape, hrows⟩ := hmarshalled.shape_complex hcomplex
  obtain ⟨content, hcontent, hkept⟩ := hanswers.exists_content
  have hdimension : t.shape ≠ [] := by
    rw [hrows]
    exact List.cons_ne_nil 2 shape
  have hback := Value.shape_of_join hcontent ((hkept hdimension).trans hrows) hjoined
  refine ⟨⟨shape, hshape⟩, fun _ => ?_, fun hgains => ?_⟩
  · rw [hshape, ← hback]
    rfl
  · cases hgains.2.1.symm.trans hcomplex

/-- The shapes of results and outputs of a successful call. -/
structure ReturnsShapes (k : Kernel) (args : List Value) (w : World (Recorded Machine))
    (result : CallResult) : Prop where
  /-- One result for each argument that is passed on, of its shape or with a dimension. -/
  results : ∃ request reply, GoesThrough openCL k args w request reply result ∧
    List.Forall₂ OpenCL.ShapedAlike (OpenCL.flagged request) reply.results
  /-- One output for each parameter that may be written, in the shape of its argument unless
  that gains a dimension. -/
  outputs : List.Forall₂ (fun i out => ∃ p arg, k.parameters[i]? = some p ∧ args[i]? = some arg ∧
    ComesBack p arg out) (writtenPlaces k.parameters) result.outputs

section Calls

variable {k : Kernel} {args : List Value} {w : World (Recorded Machine)} {result : CallResult}

/-- Over the OpenCL backend every output has the shape of its argument, except a real argument
without dimensions for a vector parameter, which gains one. -/
theorem call_returnsShapes
    (h : (k.call openCL.recording args false w).outcome = .ok result) :
    ReturnsShapes k args w result := by
  obtain ⟨request, reply, hthrough⟩ := call_returns openCL_parallel h
  obtain ⟨_, _, hrun⟩ := Action.perform_bind_ok (congrArg Prod.fst hthrough.answer)
  have hanswers := OpenCL.run_answers hrun
  refine ⟨⟨request, reply, hthrough, hanswers.imp fun _ _ h => h.shapedAlike⟩, ?_⟩
  have hplaces := (List.forall₂_and_left ..).mpr
    ⟨fun _ hi => mem_writtenPlaces.mp hi, hthrough.givesBack⟩
  refine hplaces.imp ?_
  rintro i out ⟨⟨p, hp, hwritten⟩, arg, answer, harg, hanswer, hdecoded⟩
  refine ⟨p, arg, hp, harg, ?_⟩
  obtain ⟨t, readOnly, hpassed, hflag, hmarshalled, -, hmeaning⟩ :=
    hthrough.passesOn.places i p arg hp harg
  have hitem : (OpenCL.flagged request)[i]? = some (.ofTensor t, readOnly) :=
    List.getElem?_zip_eq_some.mpr ⟨hpassed, hflag⟩
  obtain ⟨answer', hanswer', hback⟩ := Steps.place hanswers hitem
  cases hanswer.symm.trans hanswer'
  have hinout : p.direction ≠ .input := by
    rintro hinput
    simp [Parameter.isInput, hinput] at hwritten
  cases hdecoded with
  | real notComplex =>
      refine comesBack_real hmarshalled notComplex ?_ hback
      simpa [hinout] using hmeaning
  | complex isComplex joined _ => exact comesBack_complex hmarshalled isComplex hback joined

end Calls

/-- A number and a complex one come back without dimensions. -/
theorem sample_returnsShapes :
    ∃ result, (sampleOfThree.call openCL.recording sampleArguments false sampleWorld).outcome =
        .ok result ∧
      ReturnsShapes sampleOfThree sampleArguments sampleWorld result := by
  have hsucceeds : (sampleOfThree.call openCL.recording sampleArguments false
      sampleWorld).outcome.toOption.isSome = true := by decide +kernel
  obtain ⟨result, houtcome⟩ := Steps.exists_ok_of_isSome hsucceeds
  exact ⟨result, houtcome, call_returnsShapes houtcome⟩

/-- A real array without dimensions. -/
def samplePoint : Value := .ofTensor ⟨.real .single, .point (Number.Binary.ofInt .single 1)⟩

/-- An array without dimensions for the vector parameter comes back with one dimension; the
number for the scalar parameter keeps its shape. -/
theorem point_for_vector_gains_dimension :
    samplePoint.shape? = some [] ∧
    (sampleOfThree.call openCL.recording [.list [.int 3, .int 4], .int 5, samplePoint] false
      sampleWorld).outcome.toOption.map (fun result => result.outputs.map (·.value.shape?)) =
        some [some [], some [1]] := by
  decide +kernel

end Kernel

end KernelLaunch
