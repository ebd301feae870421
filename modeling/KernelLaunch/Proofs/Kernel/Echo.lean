import KernelLaunch.Proofs.Backend.Settled
import KernelLaunch.Proofs.Host.Pairs
import KernelLaunch.Proofs.Kernel.ByPlace
import KernelLaunch.Proofs.Kernel.Commons

/-!
Round trips through backends that echo their arguments. A complex argument is split, cast,
and joined again on return, without loss if its parts have the precision of the parameter
already. The only obstacle is the extra dimension of the split, for which an array of the
maximum dimension count has no room.
-/

namespace KernelLaunch

open Host Backend Kernel Signature

variable {σ : Type}

/-- A backend that answers launches with their arguments, as long as the world is as it is
told to be, which building does not change. -/
structure Backend.Echoes (b : Backend σ) (Q : World σ → Prop) : Prop where
  note : ∀ n, Action.Preserves Q (Action.note n)
  compile : ∀ request, Action.Preserves Q (b.compile request)
  answers : ∀ request w, Q w → ∃ reply after, (b.run request).perform w = (.ok reply, after) ∧
    reply.results.map (·.value) = request.args

/-- A machine whose launches neither fail nor change anything nor lose results. -/
structure Still (w : World Machine) : Prop where
  increments : w.state.setup.increments = false
  runError : w.state.setup.runError = none
  truncate : w.state.setup.truncate = none

theorem loopback_echoes : loopback.Echoes Still where
  note n := .note fun w h => ⟨h.increments, h.runError, h.truncate⟩
  compile request w h := by
    obtain ⟨_, hsetup⟩ :=
      (loopback_settled w.state.files w.state.setup).compile request w ⟨rfl, rfl⟩
    exact ⟨hsetup ▸ h.increments, hsetup ▸ h.runError, hsetup ▸ h.truncate⟩
  answers request w h := by
    refine ⟨⟨request.args.map (⟨·, true⟩), request.args⟩, w, ?_, ?_⟩
    · simp only [loopback, Action.perform_bind, Action.perform_state, h.runError, h.increments,
        h.truncate]
      rfl
    · rw [List.map_map]
      exact List.map_id _

namespace Kernel

section Answered

variable {b : Backend σ} {k built : Kernel} {device : Device} {args : List Value}
  {w before after : World σ} {p : Prepared} {reply : Reply}

/-- Once a launch is answered, the answer decides. -/
theorem call_answered (hcount : args.length = k.parameters.length)
    (hready : (k.ready b).perform w = (.ok (built, device), before))
    (hprepare : k.prepare device args false = .ok p)
    (hrun : (b.askRun (k.runRequest device p.passed p.flags)).perform before = (.ok reply, after)) :
    (k.call b args false w).outcome = (outputs k.parameters p.complex p.passed reply.results).map
      (⟨·, argsAfter args p.passed reply.args⟩) := by
  have hbuilt := ready_settings hready
  have hprepare' : built.prepare device args false = .ok p := by
    rw [hbuilt]
    exact hprepare
  have hfinish : built.finish b device args p = k.finish b device args p := by
    rw [hbuilt]
    rfl
  obtain ⟨asked, _, hsame, hlaunch⟩ := launch_perform b built device args false before
  rw [call_of_ready hcount hready, hlaunch, hprepare', hsame rfl]
  dsimp only
  rw [hfinish, finish_of_reply hrun]

end Answered

section Marshalling

variable {p : Parameter} {arg : Value} {t z : Tensor} {parts : Parts}

/-- It is cast to what it is, if its parts have the precision of the parameter. -/
theorem Marshalled.parted (h : Marshalled p arg t) (hcomplex : arg.isComplex = .ok true)
    (hz : arg.collect = .ok z) (hstorage : z.storage = .complex parts)
    (htype : ElementType.storage? p.elementType = some (.real parts.precision)) :
    Parted parts z t := by
  cases h with
  | real notComplex => cases notComplex.symm.trans hcomplex
  | complex isComplex split cast =>
      obtain ⟨whole, hwhole, hsplit⟩ := Steps.bind_ok_iff.mp split
      cases hz.symm.trans hwhole
      obtain ⟨s, hs, hcollect⟩ := Steps.bind_ok_iff.mp cast
      split at hsplit
      · cases hsplit
      · next hroom =>
        cases hsplit
        obtain ⟨e, hparted⟩ := exists_parted hstorage (Nat.lt_of_not_le hroom)
        have he : e = z.split := by
          have hsplits := hparted.split (.ofTensor z) rfl
          rw [Value.split_array (Nat.lt_of_not_le hroom)] at hsplits
          exact (Except.ok.inj hsplits).symm
        subst he
        have hsame : s = z.split.storage := by
          rw [ElementType.storage, htype] at hs
          rw [hparted.real]
          exact (Except.ok.inj hs).symm
        subst hsame
        cases hcollect
        rw [show (HostArray.ofTensor z.split).tensor.convert z.split.storage = z.split from
          Tensor.convert_self _]
        exact hparted

/-- What is made of a value with a storage type is complex if the value counts as such. -/
theorem isComplex_of_collect (hz : arg.collect = .ok z) (hstorage : z.storage = .complex parts)
    {c : Bool} (hc : arg.isComplex = .ok c) : c = true := by
  obtain ⟨_, _, hkind⟩ := Steps.bind_ok_iff.mp hc
  have hstored : arg.kind = .stored (.complex parts) := by
    cases arg with
    | array a =>
        cases hz
        exact congrArg LeafKind.stored hstorage
    | atom | list =>
        obtain ⟨_, _, hz⟩ := Steps.bind_ok_iff.mp hz
        split at hz
        · next s hs =>
          rw [hs, ← hstorage, Value.collectAs_storage hz]
        · cases hz
  rw [hstored] at hkind
  exact (Except.ok.inj hkind).symm

/-- A result that is the argument as it was passed on can be decoded. -/
theorem exists_decoded (h : Marshalled p arg t) {c : Bool} (hc : arg.isComplex = .ok c)
    {result : Result} (hresult : result.value = .ofTensor t) :
    ∃ out, decode c (.fresh t) result = .ok out := by
  cases c with
  | false => exact ⟨_, rfl⟩
  | true =>
      obtain ⟨shape, _, hshape⟩ := h.shape_complex hc
      have hjoin : result.value.join = t.join := by
        rw [hresult, Value.join_array h.dimensions]
        rfl
      obtain ⟨joined, hjoined⟩ : ∃ joined, t.join = .ok joined :=
        ⟨_, Tensor.join_of_shape hshape (Nat.le_refl 2)⟩
      exact ⟨_, Steps.bind_ok_iff.mpr ⟨joined, hjoin.trans hjoined, rfl⟩⟩

end Marshalling

/-- The complex arguments that a call has given back as they were: those for parameters that
are not only read and have the precision of the parts already. -/
def ReturnsComplex (k : Kernel) (args : List Value) (result : CallResult) : Prop :=
  ∀ i p arg z parts, k.parameters[i]? = some p → p.isInput = false → args[i]? = some arg →
    arg.collect = .ok z → z.storage = .complex parts →
    ElementType.storage? p.elementType = some (.real parts.precision) →
      ∃ j : Nat, (writtenPlaces k.parameters)[j]? = some i ∧
        result.outputs[j]? = some ⟨.ofTensor z, false⟩

section Prepared

variable {k : Kernel} {device : Device} {args : List Value} {p : Prepared}
  {results outs : List Result}

theorem result_of_passed (hresults : results.map (·.value) = p.passed.map (·.value)) {i : Nat}
    {passed : Passed} (hpassed : p.passed[i]? = some passed) :
    ∃ result, results[i]? = some result ∧ result.value = passed.value := by
  have hvalue : (results.map (·.value))[i]? = some passed.value := by
    rw [hresults, List.getElem?_map, hpassed]
    rfl
  rw [List.getElem?_map] at hvalue
  exact Option.map_eq_some_iff.mp hvalue

theorem exists_outputs (hcount : args.length = k.parameters.length)
    (hprepare : k.prepare device args false = .ok p)
    (hresults : results.map (·.value) = p.passed.map (·.value)) :
    ∃ outs, outputs k.parameters p.complex p.passed results = .ok outs := by
  obtain ⟨⟨hcomplex, hpassed, _⟩, hplaces⟩ := prepare_inv hcount hprepare
  have hlength : results.length = k.parameters.length := by
    simpa [hpassed, hcount] using congrArg List.length hresults
  simp only [outputs_ok_iff (hcomplex.trans hcount) (hpassed.trans hcount) hlength]
  refine Steps.exists_forall₂ fun i hi => ?_
  obtain ⟨parameter, hparameter, _⟩ := mem_writtenPlaces.mp hi
  obtain ⟨hlt, _⟩ := List.getElem?_eq_some_iff.mp hparameter
  obtain ⟨c, passed, _, hc, hpassedAt, _, hplace⟩ := hplaces i parameter args[i] hparameter
    (List.getElem?_eq_getElem (hcount ▸ hlt))
  obtain ⟨t, hmarshalled, rfl⟩ := hplace.cast
  obtain ⟨result, hresult, hvalue⟩ := result_of_passed hresults hpassedAt
  obtain ⟨out, hout⟩ := exists_decoded hmarshalled hplace.isComplex hvalue
  exact ⟨out, c, .fresh t, result, hc, hpassedAt, hresult, hout⟩

theorem outputs_returnsComplex (hcount : args.length = k.parameters.length)
    (hprepare : k.prepare device args false = .ok p)
    (hresults : results.map (·.value) = p.passed.map (·.value))
    (h : outputs k.parameters p.complex p.passed results = .ok outs) (after : List Value) :
    ReturnsComplex k args ⟨outs, after⟩ := by
  obtain ⟨⟨hcomplex, hpassed, _⟩, hplaces⟩ := prepare_inv hcount hprepare
  have hlength : results.length = k.parameters.length := by
    simpa [hpassed, hcount] using congrArg List.length hresults
  rw [outputs_ok_iff (hcomplex.trans hcount) (hpassed.trans hcount) hlength] at h
  intro i parameter arg z parts hparameter hwritten harg hz hstorage htype
  obtain ⟨j, hj⟩ := List.mem_iff_getElem?.mp (mem_writtenPlaces.mpr ⟨parameter, hparameter, hwritten⟩)
  obtain ⟨out, hout, c, passed, result, hc, hpassedAt, hresult, hdecode⟩ := Steps.place h hj
  obtain ⟨c', passed', _, hc', hpassedAt', _, hplace⟩ := hplaces i parameter arg hparameter harg
  cases hc.symm.trans hc'
  cases hpassedAt.symm.trans hpassedAt'
  obtain ⟨t, hmarshalled, rfl⟩ := hplace.cast
  obtain ⟨result', hresult', hvalue⟩ := result_of_passed hresults hpassedAt
  cases hresult.symm.trans hresult'
  have hcomplexArg := isComplex_of_collect hz hstorage hplace.isComplex
  subst hcomplexArg
  obtain ⟨joined, hjoined, hresultOut⟩ := Steps.bind_ok_iff.mp hdecode
  have hparted := hmarshalled.parted hplace.isComplex hz hstorage htype
  rw [hvalue] at hjoined
  cases hjoined.symm.trans (hparted.join (.ofTensor t) rfl)
  cases hresultOut
  exact ⟨j, hj, hout⟩

end Prepared

/-- The round trips of complex arguments through an echoing backend. -/
structure ReturnsParted (b : Backend σ) (Q : World σ → Prop) : Prop where
  /-- Every complex tensor has its parts, which are joined to it again. -/
  split : ∀ parts (z : Tensor), z.storage = .complex parts → z.shape.length < maxDimensions →
    ∃ e, Parted parts z e
  /-- Every tensor of two rows is joined to one that is split to it again. -/
  join : ∀ parts (e : Tensor) shape, e.storage = .real parts.precision → e.shape = 2 :: shape →
    e.shape.length ≤ maxDimensions → ∃ z, Parted parts z e
  types : ∀ parts : Parts,
    NumberType.realFor (.stored (.complex parts)) = .ok (.stored (.real parts.precision)) ∧
      NumberType.complexFor (.stored (.real parts.precision)) = .stored (.complex parts) ∧
      ∃ bytes, NumberType.sizes (.stored (.real parts.precision)) = [('f', bytes)] ∧
        NumberType.sizes (.stored (.complex parts)) = [('c', 2 * bytes)]
  castable : ∀ (p : Parameter) (a : HostArray) parts, a.tensor.storage = .complex parts →
    a.tensor.shape.length < maxDimensions →
    ElementType.storage? p.elementType = some (.real parts.precision) →
      ∃ t, Marshalled p (.array a) t
  returned : ∀ (k : Kernel) (args : List Value) (w before : World σ) (built : Kernel)
    (device : Device), Q w →
    List.Forall₂ (fun p arg => ∃ t, Marshalled p arg t) k.parameters args →
    (k.ready b).perform w = (.ok (built, device), before) →
    device.Admits k.geometry.block.toList →
      ∃ result, (k.call b args false w).outcome = .ok result ∧ ReturnsComplex k args result

theorem marshalled_complex {p : Parameter} {a : HostArray} {parts : Parts}
    (hstorage : a.tensor.storage = .complex parts) (hroom : a.tensor.shape.length < maxDimensions)
    (htype : ElementType.storage? p.elementType = some (.real parts.precision)) :
    ∃ t, Marshalled p (.array a) t := by
  obtain ⟨e, hparted⟩ := exists_parted hstorage hroom
  have hkind : (Value.array a).kind = .stored (.complex parts) :=
    congrArg LeafKind.stored hstorage
  have hcomplex : (Value.array a).isComplex = .ok true :=
    Steps.bind_ok_iff.mpr ⟨_, Value.leaves_array a (Nat.le_of_lt hroom), by rw [hkind]⟩
  refine ⟨e.convert (.real parts.precision), .complex hcomplex (hparted.split a rfl) ?_⟩
  rw [ElementType.cast, ElementType.storage, htype]
  rfl

theorem echoes_returnParted {b : Backend σ} {Q : World σ → Prop} (hb : b.Echoes Q) :
    ReturnsParted b Q where
  split _ _ := exists_parted
  join _ _ _ := exists_parted_of_rows
  types := NumberType.parted
  castable _ _ _ := marshalled_complex
  returned := by
    intro k args w before built device hw castable hready hadmits
    have hcount := castable.length_eq.symm
    obtain ⟨p, hprepare⟩ := exists_prepare hadmits castable
    have hbefore : Q before := by
      have hkept := Action.Preserves.iff_simulates.mpr (ready_simulates
        (fun n => Action.Preserves.iff_simulates.mp (hb.note n))
        (fun request => Action.Preserves.iff_simulates.mp (hb.compile request)) k) w hw
      rw [hready] at hkept
      exact hkept
    obtain ⟨reply, after, hrun, hresults⟩ := hb.answers (k.runRequest device p.passed p.flags) _
      (hb.note (.run (k.runRequest device p.passed p.flags)) before hbefore)
    have hask : (b.askRun (k.runRequest device p.passed p.flags)).perform before =
        (.ok reply, after) := by
      rw [askRun, Action.perform_bind]
      exact hrun
    have hcall := call_answered hcount hready hprepare hask
    obtain ⟨outs, houts⟩ := exists_outputs hcount hprepare hresults
    rw [houts] at hcall
    exact ⟨_, hcall, outputs_returnsComplex hcount hprepare hresults houts _⟩

/-- One complex number in an array without dimensions. -/
def sampleComplex : Tensor :=
  ⟨.complex .single, .point (Number.Binary.ofInt .single 1, Number.Binary.ofInt .single 2)⟩

/-- A kernel with a vector that it may write. -/
def sampleOfVector : Kernel :=
  { Life.sample.kernel with
    interface := ⟨"f", "global float *z"⟩
    parameters := [⟨"z", .inout, .vector, "float", "float"⟩] }

theorem sample_returnsParted :
    loopback.Echoes Still ∧ ReturnsParted loopback Still ∧
      ∃ result, (sampleOfVector.call loopback [.ofTensor sampleComplex] false
        ⟨{ files := { temporary := ["kernel void f(global float *z)"] } }, []⟩).outcome =
          .ok result ∧
        result.outputs[0]? = some ⟨.ofTensor sampleComplex, false⟩ := by
  have hreturns := echoes_returnParted loopback_echoes
  refine ⟨loopback_echoes, hreturns, ?_⟩
  generalize hw : (⟨{ files := { temporary := ["kernel void f(global float *z)"] } }, []⟩ :
    World Machine) = w
  have hstill : Still w := by
    subst hw
    exact ⟨rfl, rfl, rfl⟩
  have hcastable := hreturns.castable ⟨"z", .inout, .vector, "float", "float"⟩
    (.ofTensor sampleComplex) .single rfl (by decide) rfl
  have hdevice : ((sampleOfVector.ready loopback).perform w).1.toOption.map Prod.snd =
      some ⟨0, "P", Life.sampleNative "first"⟩ := by
    subst hw
    rfl
  rcases hready : (sampleOfVector.ready loopback).perform w with ⟨e | ⟨built, device⟩, before⟩
  · rw [hready] at hdevice
    cases hdevice
  · rw [hready] at hdevice
    cases hdevice
    obtain ⟨result, houtcome, hcomplex⟩ := hreturns.returned sampleOfVector
      [.ofTensor sampleComplex] w before built _ hstill (.cons hcastable .nil) hready
      ⟨by decide +kernel, by decide +kernel⟩
    obtain ⟨j, hj, hout⟩ := hcomplex 0 _ _ sampleComplex .single rfl rfl rfl rfl rfl rfl
    have hzero : j = 0 := by
      have hplaces : writtenPlaces sampleOfVector.parameters = [0] := by decide +kernel
      rw [hplaces] at hj
      cases j with
      | zero => rfl
      | succ j => cases hj
    subst hzero
    exact ⟨result, houtcome, hout⟩

end Kernel

end KernelLaunch
