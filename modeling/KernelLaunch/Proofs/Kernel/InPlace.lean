import KernelLaunch.Proofs.Backend.NativeByValue
import KernelLaunch.Proofs.Kernel.ByPlace

/-!
In-place calls against copying calls. A copying call casts all arguments, an in-place call
those of scalar parameters only. For arguments that already have the element types of their
parameters both pass the same values to the backend, with the same read-only flags.
-/

namespace KernelLaunch.Kernel

open Host Signature Backend

variable {σ : Type}

/-- An array that already has the element type of its parameter, or a complex one whose parts
have it. -/
def Suits (p : Parameter) (arg : Value) : Prop :=
  ∃ a, arg = .array a ∧ ElementType.storage? p.elementType = some a.tensor.storage.part

/-- Casting what is passed to a parameter changes nothing. -/
def Fits (p : Parameter) (passed : Passed) : Prop :=
  ∃ a, passed.value = .array a ∧ ElementType.storage? p.elementType = some a.tensor.storage

/-- What a backend can tell of prepared arguments, and what their outputs depend
on. -/
def Prepared.content (p : Prepared) : List Bool × List Value × List Bool :=
  (p.complex, p.passed.map (·.value.content), p.flags)

theorem part_of_not_complex {s : Storage} (h : ∀ parts, s ≠ .complex parts) : s.part = s := by
  cases s with
  | complex parts => exact absurd rfl (h parts)
  | _ => rfl

/-- Once it is encoded, an argument that suits its parameter has its type. -/
theorem fits_of_encode {p : Parameter} {arg : Value} (h : Suits p arg) {c : Bool}
    (hc : arg.isComplex = .ok c) {encoded : Passed} (hencode : encode c arg = .ok encoded) :
    Fits p encoded := by
  obtain ⟨a, rfl, hstorage⟩ := h
  cases c with
  | false =>
      cases hencode
      refine ⟨a, rfl, ?_⟩
      rw [hstorage, part_of_not_complex]
      intro parts hparts
      have htrue := (Value.isComplex_array hc).mpr ⟨parts, hparts⟩
      cases htrue
  | true =>
      obtain ⟨parts, hsplit, rfl⟩ := Steps.map_ok_iff.mp hencode
      obtain ⟨t, ht, hroom⟩ := Steps.bind_ok_iff.mp hsplit
      cases ht
      split at hroom
      · cases hroom
      · cases hroom
        exact ⟨.ofTensor a.tensor.split, rfl, hstorage⟩

theorem Fits.castTo {p : Parameter} {passed : Passed} (h : Fits p passed) :
    ∃ t, passed.value.content = .ofTensor t ∧ castTo p passed = .ok (.fresh t) := by
  obtain ⟨a, hvalue, hstorage⟩ := h
  refine ⟨a.tensor, by rw [hvalue]; rfl, ?_⟩
  simp [Kernel.castTo, ElementType.cast, ElementType.storage, hstorage, hvalue, bind, Except.bind,
    Value.collectAs, Except.map]

/-- Both ways with an argument that has the type of its parameter keep what it
holds. -/
theorem Fits.agree {p : Parameter} {passed : Passed} (h : Fits p passed) :
    (castInPlace p passed).map (·.value.content) =
      (Kernel.castTo p passed).map (·.value.content) := by
  obtain ⟨t, hcontent, hcast⟩ := h.castTo
  unfold castInPlace
  split
  · rfl
  · rw [hcast]
    exact congrArg Except.ok hcontent

section

variable {k : Kernel} {device : Device} {args : List Value}

theorem passedOn_agree (hcount : args.length = k.parameters.length)
    (suits : ∀ (i : Nat) p arg, k.parameters[i]? = some p → args[i]? = some arg → Suits p arg)
    {complex : List Bool} (hcomplex : args.mapM Value.isComplex = .ok complex) :
    (k.passedOn args true complex).map (List.map (·.value.content)) =
      (k.passedOn args false complex).map (List.map (·.value.content)) := by
  unfold passedOn
  cases hencoded : encodeAll complex args with
  | error e => rfl
  | ok encoded =>
      have complexAt := Steps.mapM_ok_iff.mp hcomplex
      have encodedAt := Steps.mapM_ok_iff.mp hencoded
      have hresolved : ∀ p ∈ k.parameters, p.isResolved = true := by
        intro p hp
        obtain ⟨i, hi, rfl⟩ := List.mem_iff_getElem.mp hp
        obtain ⟨a, _, hstorage⟩ := suits i k.parameters[i] args[i] (List.getElem?_eq_getElem _)
          (List.getElem?_eq_getElem _)
        simp [Parameter.isResolved, ElementType.isResolved, hstorage]
      have hfits : ∀ pair ∈ k.parameters.zip encoded, Fits pair.1 pair.2 := by
        rintro ⟨p, e⟩ hpair
        obtain ⟨i, hi⟩ := List.mem_iff_getElem?.mp hpair
        obtain ⟨hp, he⟩ := List.getElem?_zip_eq_some.mp hi
        obtain ⟨⟨c, arg⟩, hzip, hencode⟩ := Steps.place encodedAt.flip he
        obtain ⟨hc, harg⟩ := List.getElem?_zip_eq_some.mp hzip
        obtain ⟨c', hc', hisComplex⟩ := Steps.place complexAt harg
        cases hc.symm.trans hc'
        exact fits_of_encode (suits i p arg hp harg) hisComplex hencode
      change (castAll k.name k.parameters true encoded).map _ =
        (castAll k.name k.parameters false encoded).map _
      rw [castAll_of_resolved hresolved]
      exact Steps.mapM_agree fun pair hpair => (hfits pair hpair).agree

theorem readOnly_content (p : Parameter) (v : Value) : readOnly p v.content = readOnly p v := by
  unfold readOnly
  rw [Value.isSingle_content]

theorem readOnlyAll_content (ps : List Parameter) (values : List Value) :
    readOnlyAll ps (values.map Value.content) = readOnlyAll ps values := by
  unfold readOnlyAll
  rw [List.zip_map_right, List.mapM_map]
  congr 1
  funext ⟨p, v⟩
  exact readOnly_content p v

theorem prepare_agree (hcount : args.length = k.parameters.length)
    (suits : ∀ (i : Nat) p arg, k.parameters[i]? = some p → args[i]? = some arg → Suits p arg) :
    (k.prepare device args true).map Prepared.content =
      (k.prepare device args false).map Prepared.content := by
  unfold prepare
  apply Steps.bind_agree (p := id) (q := id) rfl
  rintro _ _ -
  cases hcomplex : args.mapM Value.isComplex with
  | error e => rfl
  | ok complex =>
      apply Steps.bind_agree (passedOn_agree hcount suits hcomplex)
      intro passed passed' hpassed
      have hvalues : (passed.map (·.value)).map Value.content =
          (passed'.map (·.value)).map Value.content := by
        rw [List.map_map, List.map_map]
        exact hpassed
      have hflags : readOnlyAll k.parameters (passed.map (·.value)) =
          readOnlyAll k.parameters (passed'.map (·.value)) := by
        rw [← readOnlyAll_content, hvalues, readOnlyAll_content]
      rw [hflags]
      apply Steps.bind_agree (p := id) (q := id) rfl
      rintro flags _ rfl
      exact congrArg (fun values => Except.ok (complex, values, flags)) hpassed

end

/-- What the outputs of a call hold. -/
def CallResult.contents (r : CallResult) : List Value := r.outputs.map (·.value.content)

theorem decode_agree (c : Bool) (a a' : Passed) {r r' : Result}
    (h : r.value.content = r'.value.content) :
    (decode c a r).map (·.value.content) = (decode c a' r').map (·.value.content) := by
  cases c with
  | false => exact congrArg Except.ok h
  | true =>
      have hjoin : r.value.join = r'.value.join := by
        rw [← Value.join_content, h, Value.join_content]
      unfold decode
      rw [if_pos rfl, if_pos rfl, hjoin]

/-- Outputs hold what the results hold, whatever was passed. -/
theorem outputs_agree {ps : List Parameter} {flags : List Bool} {passed passed' : List Passed}
    {results results' : List Result} (hpassed : passed.length = passed'.length)
    (hresults : results.map (·.value.content) = results'.map (·.value.content)) :
    (outputs ps flags passed results).map (List.map (·.value.content)) =
      (outputs ps flags passed' results').map (List.map (·.value.content)) := by
  induction ps generalizing flags passed passed' results results' with
  | nil => rfl
  | cons p ps ih =>
      cases flags with
      | nil => rfl
      | cons c flags =>
          cases passed with
          | nil =>
              rw [List.eq_nil_of_length_eq_zero hpassed.symm]
              rfl
          | cons a passed =>
              obtain ⟨a', passed', rfl⟩ := List.exists_cons_of_length_eq_add_one hpassed.symm
              cases results with
              | nil =>
                  rw [List.map_eq_nil_iff.mp hresults.symm]
                  rfl
              | cons r results =>
                  obtain ⟨r', results', rfl, hr, hrest⟩ := List.map_eq_cons_iff.mp hresults.symm
                  have hothers := @ih flags passed passed' results results'
                    (Nat.succ.inj hpassed) hrest.symm
                  rw [outputs, outputs]
                  split
                  · exact hothers
                  · apply Steps.bind_agree (decode_agree c a a' hr.symm)
                    intro out out' hout
                    apply Steps.bind_agree hothers
                    intro outs outs' houts
                    exact congrArg Except.ok (congrArg₂ List.cons hout houts)

theorem content_runRequest (k : Kernel) (device : Device) {passed passed' : List Passed}
    {flags flags' : List Bool}
    (hpassed : passed.map (·.value.content) = passed'.map (·.value.content))
    (hflags : flags = flags') :
    (k.runRequest device passed flags).content = (k.runRequest device passed' flags').content := by
  unfold runRequest RunRequest.content
  rw [hflags, List.map_map, List.map_map]
  exact congrArg (RunRequest.mk device _ _ _ · flags') hpassed

theorem finish_agree {b : Backend σ} (hb : b.RunsByValue) (k : Kernel) (device : Device)
    (args : List Value) {p p' : Prepared} (hcontent : p.content = p'.content)
    {w w' : World (Recorded σ)} (hstate : w.state = w'.state) :
    ((k.finish b.recording device args p).perform w).1.map CallResult.contents =
      ((k.finish b.recording device args p').perform w').1.map CallResult.contents := by
  obtain ⟨hcomplex, hrest⟩ := Prod.mk.inj hcontent
  obtain ⟨hpassed, hflags⟩ := Prod.mk.inj hrest
  have hanswer := hb.recorded (content_runRequest k device hpassed hflags) hstate
  cases hrun : (b.recording.askRun (k.runRequest device p.passed p.flags)).perform w with
  | mk answer after =>
      cases hrun' : (b.recording.askRun (k.runRequest device p'.passed p'.flags)).perform w' with
      | mk answer' after' =>
          rw [hrun, hrun'] at hanswer
          rcases Steps.agree_cases hanswer with ⟨e, rfl, rfl⟩ | ⟨reply, reply', rfl, rfl, hreply⟩
          · rw [finish_of_error hrun, finish_of_error hrun']
          · rw [finish_of_reply hrun, finish_of_reply hrun', hcomplex]
            have hlength : p.passed.length = p'.passed.length := by
              simpa using congrArg List.length hpassed
            have houts := @outputs_agree k.parameters p'.complex p.passed p'.passed reply.results
              reply'.results hlength hreply
            rcases Steps.agree_cases houts with ⟨e, hout, hout'⟩ | ⟨outs, outs', hout, hout', heq⟩
            · rw [hout, hout']
              rfl
            · rw [hout, hout']
              exact congrArg Except.ok heq

/-- Two calls from the same world that agree in exchanges and outputs by content. -/
structure Indistinguishable (b : Backend σ) (w : World (Recorded σ))
    (c c' : Called (Recorded σ)) : Prop where
  kernel : c.kernel = c'.kernel
  compilations : c.compilations w = c'.compilations w
  launches : (c.launches w).map RunRequest.content = (c'.launches w).map RunRequest.content
  /-- The outputs hold the same, or the calls fail for the same reason. -/
  outcome : b.RunsByValue →
    c.outcome.map CallResult.contents = c'.outcome.map CallResult.contents

theorem Indistinguishable.rfl {b : Backend σ} {w : World (Recorded σ)}
    {c : Called (Recorded σ)} : Indistinguishable b w c c :=
  ⟨.refl _, .refl _, .refl _, fun _ => .refl _⟩

/-- For arguments that already have the element types of their parameters, an in-place call
and a copying call make the same compile and launch requests and return outputs of the same
content, over any backend that goes by values. -/
theorem call_inPlace_agrees (b : Backend σ) (k : Kernel) (args : List Value)
    (suits : ∀ (i : Nat) p arg, k.parameters[i]? = some p → args[i]? = some arg → Suits p arg)
    (w : World (Recorded σ)) :
    Indistinguishable b w (k.call b.recording args true w)
      (k.call b.recording args false w) := by
  by_cases hcount : args.length = k.parameters.length
  · cases hready : (k.ready b.recording).perform w with
    | mk answer before =>
        cases answer with
        | error e =>
            rw [call_of_unready hcount hready, call_of_unready hcount hready]
            exact .rfl
        | ok pair =>
            obtain ⟨built, device⟩ := pair
            have hkernel : (k.call b.recording args true w).kernel =
                (k.call b.recording args false w).kernel := by
              rw [call_of_ready hcount hready, call_of_ready hcount hready]
            have hcompilations := (call_compilations hcount hready true).trans
              (call_compilations hcount hready false).symm
            rcases Steps.agree_cases (@prepare_agree k device args hcount suits) with
              ⟨e, hprepare, hprepare'⟩ | ⟨p, p', hprepare, hprepare', hcontent⟩
            · obtain ⟨houtcome, hnone⟩ := call_refused hcount hready hprepare
              obtain ⟨houtcome', hnone'⟩ := call_refused hcount hready hprepare'
              refine ⟨hkernel, hcompilations, ?_, fun _ => ?_⟩
              · rw [hnone, hnone']
              · rw [houtcome, houtcome']
            · obtain ⟨hlaunches, asked, hstate, _, hfinish⟩ :=
                (reaches_of_ready hcount hready hprepare).launched
              obtain ⟨hlaunches', asked', hstate', _, hfinish'⟩ :=
                (reaches_of_ready hcount hready hprepare').launched
              refine ⟨hkernel, hcompilations, ?_, fun hb => ?_⟩
              · obtain ⟨_, hrest⟩ := Prod.mk.inj hcontent
                obtain ⟨hpassed, hflags⟩ := Prod.mk.inj hrest
                rw [hlaunches, hlaunches']
                exact congrArg (fun r => [r]) (content_runRequest k device hpassed hflags)
              · have hagree := finish_agree hb k device args hcontent (hstate.trans hstate'.symm)
                rw [hfinish, hfinish'] at hagree
                exact hagree
  · rw [call_of_miscounted hcount, call_of_miscounted hcount]
    exact .rfl

/-- Arrays of the types of the sample; the last one is complex. -/
def sampleArrays : List HostArray :=
  [⟨⟨.integer true .word, [2], [BitVec.ofNat 32 3, BitVec.ofNat 32 4], rfl⟩, true, true⟩,
    ⟨⟨.integer true .word, [], [BitVec.ofNat 32 5], rfl⟩, false, false⟩,
    ⟨⟨.complex .single, [1], [(.ofInt .single 1, .ofInt .single 2)], rfl⟩, false, false⟩]

/-- The sample is launched on native objects in place and gives back the number and
the complex one, as the copying call does. -/
theorem sample_inPlace_agrees :
    (∀ (i : Nat) p arg, sampleOfThree.parameters[i]? = some p →
      (sampleArrays.map Value.array)[i]? = some arg → Suits p arg) ∧
    openCL.RunsByValue ∧
    Indistinguishable openCL sampleWorld
      (sampleOfThree.call openCL.recording (sampleArrays.map .array) true sampleWorld)
      (sampleOfThree.call openCL.recording (sampleArrays.map .array) false sampleWorld) ∧
    (sampleOfThree.call openCL.recording (sampleArrays.map .array) true
      sampleWorld).outcome.toOption.map (·.outputs.length) = some 2 := by
  have hsuits : ∀ (i : Nat) p arg, sampleOfThree.parameters[i]? = some p →
      (sampleArrays.map Value.array)[i]? = some arg → Suits p arg := by
    intro i p arg hp harg
    match i with
    | 0 | 1 | 2 =>
        cases hp
        cases harg
        exact ⟨_, rfl, by decide +kernel⟩
    | _ + 3 => cases hp
  exact ⟨hsuits, openCL_runsByValue, call_inPlace_agrees _ _ _ hsuits _, by decide +kernel⟩

end KernelLaunch.Kernel
