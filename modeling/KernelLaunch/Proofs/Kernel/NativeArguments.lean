import KernelLaunch.Proofs.Backend.Programs
import KernelLaunch.Proofs.Kernel.ByPlace

/-!
Native arguments of vector and scalar parameters. The backend decides by the read-only flag
and the element count of an argument, never by its parameter. The main statements say that a
vector argument always arrives in a buffer with the access its flag allows, and a scalar
argument by value exactly when it is one number.
-/

namespace KernelLaunch

open Host Signature Backend

namespace Backend.OpenCL

/-- The single element of a tensor keeps its type. -/
theorem singleElement_ofTensor {t : Tensor} (hsize : t.size = 1) {v : Value}
    (h : singleElement (.ofTensor t) = .ok v) :
    ∃ x, t.grid.cells = [x] ∧ v = .atom (.element t.storage x) := by
  have hkind : (Value.ofTensor t).kind = .stored t.storage := rfl
  have hcollect : (Value.ofTensor t).collectAs t.storage = .ok t :=
    congrArg Except.ok t.convert_self
  obtain ⟨_, _, h⟩ := Steps.bind_ok_iff.mp h
  rw [hkind] at h
  dsimp only at h
  rw [hcollect] at h
  obtain ⟨x, hcells⟩ := List.length_eq_one_iff.mp (t.grid.count.trans hsize)
  obtain ⟨t', ht, h⟩ := Steps.bind_ok_iff.mp h
  cases ht
  rw [hcells] at h
  cases h
  exact ⟨x, hcells, rfl⟩

end Backend.OpenCL

/-- A buffer that was created while some notes were left, and the only one of its
number. -/
structure BufferIn (notes : List Note) (number : Nat) (access : Native.Access)
    (content : Tensor) : Prop where
  created : ∃ context, .native (.buffer number context access content) ∈ notes
  sole : ∀ context access' content', .native (.buffer number context access' content') ∈ notes →
    access' = access ∧ content' = content

namespace Backend.OpenCL

/-- The argument of a native call in the place of an argument of a launch. -/
theorem Calling.place {request : RunRequest} {w : World Machine} {notes : List Note}
    {c : Native.Call} {opened : Nat × Nat} {staged : List Staged}
    (h : Calling request w notes c opened staged) {i : Nat} {v : Value} {readOnly : Bool}
    (hv : request.args[i]? = some v) (hflag : request.readOnly[i]? = some readOnly) :
    (byValue v readOnly = .ok true ∧ ∃ e, singleElement v = .ok e ∧
      c.arguments[i]? = some (.value e)) ∨
    (byValue v readOnly = .ok false ∧ ∃ number host, hostSide v readOnly = .ok host ∧
      c.arguments[i]? = some (.buffer number) ∧
      BufferIn notes number (accessFor readOnly) host.tensor) := by
  have harguments := h.arguments_eq
  obtain ⟨_, opening, created, rest, _, _, _, hopens, hcreates, hfollow, hhanded, rfl⟩ := h
  have hitem : (flagged request)[i]? = some (v, readOnly) :=
    List.getElem?_zip_eq_some.mpr ⟨hv, hflag⟩
  obtain ⟨s, hs, hstaged⟩ := Steps.place hhanded hitem
  have hargument : c.arguments[i]? = some s.argument := by
    rw [harguments, List.getElem?_map, hs]
    rfl
  cases hstaged with
  | value single element => exact .inl ⟨single, _, element, hargument⟩
  | @buffer number host several side hcreated =>
      refine .inr ⟨several, number, host, side, hargument, ⟨opened.1, ?_⟩, ?_⟩
      · exact List.mem_append_right _ (List.mem_append_left _ hcreated)
      · intro context access content hmem
        -- Only the arguments are put in buffers.
        have hmem : Note.native (.buffer number context access content) ∈ created := by
          rcases List.mem_append.mp hmem with hmem | hmem
          · rcases hopens.mem hmem with heq | heq <;> cases heq
          · rcases List.mem_append.mp hmem with hmem | hmem
            · exact hmem
            · rcases List.mem_cons.mp hmem with heq | hmem
              · cases heq
              · rcases hfollow _ hmem with heq | ⟨_, _, heq⟩ <;> cases heq
        cases hcreates.sole hmem hcreated
        exact ⟨rfl, rfl⟩

end Backend.OpenCL

/-- An exchange with the backend on native objects. -/
inductive Exchange.Genuine : Exchange → Prop where
  | compile {request : CompileRequest} {w after : World Machine}
      {answer : Except Failure (List String)} {notes : List Note}
      (compiling : OpenCL.Compiling request w answer notes after) :
      Genuine (.compile request answer notes)
  | run {request : RunRequest} {w after : World Machine} {outcome : Except Failure Reply}
      {notes : List Note} (running : OpenCL.Running request w outcome notes after) :
      Genuine (.run request notes)

/-- Native code is called by launches only. -/
theorem Exchange.Genuine.calling {e : Exchange} (h : e.Genuine) {c : Native.Call}
    (hc : c ∈ e.calls) :
    ∃ request w opened staged, e.runRequest? = some request ∧
      OpenCL.Calling request w e.events c opened staged := by
  have hc : .native (.call c) ∈ e.events := mem_calls.mp hc
  cases h with
  | compile compiling => exact absurd hc compiling.no_call
  | @run request w _ _ _ running =>
      obtain ⟨opened, staged, hcalling⟩ := running.calling hc
      exact ⟨request, w, opened, staged, rfl, hcalling⟩

namespace Kernel

/-- Whatever has been added to a record is genuine. -/
def GenuineSince (record : List Exchange) (w : World (Recorded Machine)) : Prop :=
  ∃ added, w.state.record = record ++ added ∧ ∀ e ∈ added, e.Genuine

theorem GenuineSince.snoc {record : List Exchange} {w after : World (Recorded Machine)}
    (h : GenuineSince record w) {e : Exchange} (he : e.Genuine)
    (hrecord : after.state.record = w.state.record ++ [e]) : GenuineSince record after := by
  obtain ⟨added, hadded, hgenuine⟩ := h
  refine ⟨added ++ [e], ?_, ?_⟩
  · rw [hrecord, hadded, List.append_assoc]
  · intro e' he'
    rcases List.mem_append.mp he' with he' | he'
    · exact hgenuine e' he'
    · rw [List.mem_singleton.mp he']
      exact he

theorem call_genuine (k : Kernel) (args : List Value) (inPlace : Bool)
    (w : World (Recorded Machine)) {e : Exchange}
    (he : e ∈ (k.call openCL.recording args inPlace w).exchanges w) : e.Genuine := by
  have hcompile (request : CompileRequest) :
      Action.Preserves (GenuineSince w.state.record) (openCL.recording.compile request) := by
    intro v h
    obtain ⟨answer, notes, after, hperform, hcompiling⟩ := OpenCL.compile_recorded request v
    rw [hperform]
    exact h.snoc (.compile hcompiling) rfl
  have hrun (request : RunRequest) :
      Action.Preserves (GenuineSince w.state.record) (openCL.recording.run request) := by
    intro v h
    obtain ⟨outcome, notes, after, hperform, hrunning⟩ := OpenCL.run_recorded request v
    rw [hperform]
    exact h.snoc (.run hrunning) rfl
  have hnote (n : Note) : Action.Preserves (GenuineSince w.state.record) (Action.note n) :=
    .note fun _ h => h
  have hnow : GenuineSince w.state.record w := ⟨[], (List.append_nil _).symm, by simp⟩
  have hall := call_preserves hnote hcompile hrun k args inPlace w hnow
  obtain ⟨added, hrecord, hgenuine⟩ := hall
  rw [Called.exchanges, hrecord, List.drop_left] at he
  exact hgenuine e he

/-- An argument as a call of either kind passes it on. A call in place leaves real
arguments as they are, unless they are for scalars of known type. -/
inductive PassedAs (p : Parameter) (inPlace : Bool) (arg : Value) : Value → Prop where
  | cast {t : Tensor} (marshalled : Marshalled p arg t) : PassedAs p inPlace arg (.ofTensor t)
  | itself (loose : inPlace = true ∧ ¬ (p.shape = .scalar ∧ p.isResolved = true))
      (notComplex : arg.isComplex = .ok false) : PassedAs p inPlace arg arg
  | parts {parts : Tensor}
      (loose : inPlace = true ∧ ¬ (p.shape = .scalar ∧ p.isResolved = true))
      (isComplex : arg.isComplex = .ok true) (split : arg.split = .ok parts) :
      PassedAs p inPlace arg (.ofTensor parts)

theorem Stages.passedAs {inPlace : Bool} {p : Parameter} {arg : Value} {c : Bool}
    {passed : Passed} {flag : Bool} (h : Stages inPlace p arg c passed flag) :
    PassedAs p inPlace arg passed.value := by
  obtain ⟨hc, ⟨encoded, hencode, hcast⟩, _⟩ := h
  have hcasts (hcast : castTo p encoded = .ok passed) : PassedAs p inPlace arg passed.value := by
    obtain ⟨t, hmarshalled, rfl⟩ := (marshalled_iff hc).mp ⟨encoded, hencode, hcast⟩
    exact .cast hmarshalled
  cases inPlace with
  | false => exact hcasts hcast
  | true =>
      change castInPlace p encoded = .ok passed at hcast
      unfold castInPlace at hcast
      split at hcast
      · exact hcasts hcast
      · next hnot =>
        cases hcast
        have hloose : ¬ (p.shape = .scalar ∧ p.isResolved = true) := by
          rintro ⟨hscalar, hresolved⟩
          simp [Parameter.isVector, hscalar, hresolved] at hnot
        cases c with
        | false =>
            cases hencode
            exact .itself ⟨rfl, hloose⟩ hc
        | true =>
            obtain ⟨parts, hsplit, rfl⟩ := Steps.map_ok_iff.mp hencode
            exact .parts ⟨rfl, hloose⟩ hc hsplit

theorem PassedAs.exists_leaves {p : Parameter} {inPlace : Bool} {arg v : Value}
    (h : PassedAs p inPlace arg v) : ∃ g, v.leaves = .ok g := by
  cases h with
  | cast marshalled => exact ⟨_, Value.leaves_array (.ofTensor _) marshalled.dimensions⟩
  | itself _ notComplex => exact Value.leaves_of_isComplex notComplex
  | parts _ _ split => exact ⟨_, Value.leaves_array (.ofTensor _) (Value.split_dimensions split)⟩

/-- Once it is passed on, an argument holds one element if its host side does. -/
theorem PassedAs.isSingle {p : Parameter} {inPlace : Bool} {arg v : Value}
    (h : PassedAs p inPlace arg v) {t : Tensor} (ht : v.collect = .ok t) :
    v.isSingle = .ok (t.size == 1) := by
  obtain ⟨g, hleaves⟩ := h.exists_leaves
  exact Value.isSingle_of_shape hleaves (Value.collect_shape hleaves ht)

section Calls

variable {k : Kernel} {args : List Value} {inPlace : Bool} {w : World (Recorded Machine)}
  {e : Exchange} {c : Native.Call} {i : Nat} {p : Parameter}

/-- An argument of a native call, on its way from the caller to native code. -/
theorem call_place (he : e ∈ (k.call openCL.recording args inPlace w).exchanges w)
    (hc : c ∈ e.calls) (hp : k.parameters[i]? = some p) :
    ∃ arg v flag request before opened staged, args[i]? = some arg ∧ PassedAs p inPlace arg v ∧
      readOnly p v = .ok flag ∧ request.args[i]? = some v ∧ request.readOnly[i]? = some flag ∧
      OpenCL.Calling request before e.events c opened staged := by
  obtain ⟨request, before, opened, staged, hrequest, hcalling⟩ :=
    (call_genuine k args inPlace w he).calling hc
  have hmem : request ∈ (k.call openCL.recording args inPlace w).launches w :=
    List.mem_filterMap.mpr ⟨e, he, hrequest⟩
  rcases reaches_or_fails openCL k args inPlace w with
    ⟨device, ready, prepared, hreaches⟩ | ⟨_, hnone⟩
  · rw [hreaches.launched.1, List.mem_singleton] at hmem
    subst hmem
    have hi : i < args.length := by
      rw [hreaches.count]
      exact (List.getElem?_eq_some_iff.mp hp).1
    obtain ⟨_, hplaces⟩ := prepare_stages hreaches.count hreaches.prepared
    obtain ⟨_, passed, flag, _, hpassed, hflag, hstages⟩ :=
      hplaces i p args[i] hp (List.getElem?_eq_getElem hi)
    refine ⟨args[i], passed.value, flag, _, before, opened, staged, List.getElem?_eq_getElem hi,
      hstages.passedAs, hstages.readOnly, ?_, hflag, hcalling⟩
    rw [runRequest, List.getElem?_map, hpassed]
    rfl
  · rw [hnone] at hmem
    cases hmem

/-- An argument for a vector, as native code gets it: in a buffer of its own with
all its elements. -/
inductive VectorHanded (p : Parameter) (inPlace : Bool) (arg : Value) (notes : List Note) :
    Native.Argument → Prop where
  | buffer {v : Value} {t : Tensor} {number : Nat} {access : Native.Access}
      (passed : PassedAs p inPlace arg v) (content : v.collect = .ok t)
      (buffer : BufferIn notes number access (OpenCL.dimensioned t))
      (writable : access = .readWrite ↔ p.direction = .inout ∨ t.size = 1) :
      VectorHanded p inPlace arg notes (.buffer number)

theorem readOnly_vector (hvector : p.shape = .vector) {v : Value} {flag : Bool}
    (h : readOnly p v = .ok flag) :
    (p.direction = .inout ∧ flag = false) ∨
      (p.direction = .input ∧ ∃ single, v.isSingle = .ok single ∧ flag = !single) := by
  obtain ⟨name, direction, shape, sourceType, elementType⟩ := p
  cases hvector
  cases direction with
  | inout =>
      cases h
      exact .inl ⟨rfl, rfl⟩
  | input =>
      obtain ⟨single, hsingle, rfl⟩ := Steps.map_ok_iff.mp h
      exact .inr ⟨rfl, single, hsingle, rfl⟩

/-- In every native call during a kernel call, copying or in place, a vector argument is a
buffer of its own. -/
theorem call_vector (he : e ∈ (k.call openCL.recording args inPlace w).exchanges w)
    (hc : c ∈ e.calls) (hp : k.parameters[i]? = some p) (hvector : p.shape = .vector) :
    ∃ arg argument, args[i]? = some arg ∧ c.arguments[i]? = some argument ∧
      VectorHanded p inPlace arg e.events argument := by
  obtain ⟨arg, v, flag, request, before, opened, staged, harg, hpassed, hreadOnly, hv, hflag,
    hcalling⟩ := call_place he hc hp
  refine ⟨arg, ?_⟩
  rcases hcalling.place hv hflag with
    ⟨hbyValue, _⟩ | ⟨_, number, host, hside, hargument, hbuffer⟩
  · -- What is only read and has one element is not marked as only read.
    exfalso
    rcases readOnly_vector hvector hreadOnly with ⟨_, rfl⟩ | ⟨_, single, hsingle, rfl⟩
    · cases hbyValue
    · cases single with
      | true => cases hbyValue
      | false => cases hsingle.symm.trans hbyValue
  · obtain ⟨t, ht, htensor⟩ := OpenCL.hostSide_collect hside
    rw [htensor] at hbuffer
    refine ⟨_, harg, hargument, .buffer hpassed ht hbuffer ?_⟩
    rcases readOnly_vector hvector hreadOnly with ⟨hinout, rfl⟩ | ⟨hinput, single, hsingle, rfl⟩
    · exact ⟨fun _ => .inl hinout, fun _ => rfl⟩
    · cases hsingle.symm.trans (hpassed.isSingle ht)
      rw [hinput]
      cases hsize : t.size == 1 with
      | true => simpa [OpenCL.accessFor] using hsize
      | false => simpa [OpenCL.accessFor] using hsize

/-- Native code is called during a call of the sample. -/
theorem sample_calls :
    ∃ e ∈ (sampleOfThree.call openCL.recording sampleArguments false sampleWorld).exchanges
      sampleWorld, ∃ c, c ∈ e.calls := by
  have hcalled : ((sampleOfThree.call openCL.recording sampleArguments false
      sampleWorld).exchanges sampleWorld).any (!·.calls.isEmpty) = true := by decide +kernel
  obtain ⟨e, he, hcalls⟩ := List.any_eq_true.mp hcalled
  exact ⟨e, he, List.isEmpty_eq_false_iff_exists_mem.mp (by simpa using hcalls)⟩

/-- The first argument of the sample, for a vector that is only read, is in a buffer. -/
theorem sample_vector :
    ∃ e ∈ (sampleOfThree.call openCL.recording sampleArguments false sampleWorld).exchanges
      sampleWorld, ∃ c ∈ e.calls, ∃ arg argument, sampleArguments[0]? = some arg ∧
        c.arguments[0]? = some argument ∧
        VectorHanded ⟨"a", .input, .vector, "int", "int32"⟩ false arg e.events argument := by
  obtain ⟨e, he, c, hc⟩ := sample_calls
  exact ⟨e, he, c, hc, call_vector he hc rfl rfl⟩

/-- One element that is no complex number. -/
def OneNumber (arg : Value) : Prop := arg.isComplex = .ok false ∧ arg.isSingle = .ok true

/-- One number stays one number, and nothing else becomes one. -/
theorem Marshalled.size_eq_one_iff {arg : Value} {t : Tensor} (h : Marshalled p arg t) :
    t.size = 1 ↔ OneNumber arg := by
  cases h with
  | real notComplex cast =>
      obtain ⟨g, hleaves⟩ := Value.leaves_of_isComplex notComplex
      obtain ⟨s, _, hcollect⟩ := Steps.bind_ok_iff.mp cast
      rw [OneNumber, Value.isSingle_of_shape hleaves (Value.collectAs_shape hleaves hcollect)]
      simp [notComplex]
  | @complex parts isComplex split cast =>
      obtain ⟨s, _, hcollect⟩ := Steps.bind_ok_iff.mp cast
      have hleaves := Value.leaves_array (.ofTensor parts) (Value.split_dimensions split)
      have hsize : t.size = parts.size := congrArg volume (Value.collectAs_shape hleaves hcollect)
      obtain ⟨n, hn⟩ := Value.size_of_split split
      constructor
      · omega
      · rintro ⟨notComplex, _⟩
        cases isComplex.symm.trans notComplex

/-- An argument for a scalar, as native code gets it. -/
inductive ScalarHanded (p : Parameter) (arg : Value) (notes : List Note) :
    Native.Argument → Prop where
  /-- One number, as an element of the type of the parameter. -/
  | element {t : Tensor} {x : t.storage.Elem} (one : OneNumber arg)
      (marshalled : Marshalled p arg t) (typed : ElementType.storage? p.elementType = some t.storage)
      (content : t.grid.cells = [x]) :
      ScalarHanded p arg notes (.value (.atom (.element t.storage x)))
  /-- Anything else, in a buffer. -/
  | buffer {t : Tensor} {number : Nat} (other : ¬ OneNumber arg)
      (marshalled : Marshalled p arg t) (typed : ElementType.storage? p.elementType = some t.storage)
      (buffer : BufferIn notes number .readOnly (OpenCL.dimensioned t)) :
      ScalarHanded p arg notes (.buffer number)

/-- In every native call during a kernel call, a scalar argument is passed by value exactly
when it is one number, in the storage type of the parameter. -/
theorem call_scalar (he : e ∈ (k.call openCL.recording args inPlace w).exchanges w)
    (hc : c ∈ e.calls) (hp : k.parameters[i]? = some p) (hscalar : p.shape = .scalar)
    (hresolved : p.isResolved = true) :
    ∃ arg argument, args[i]? = some arg ∧ c.arguments[i]? = some argument ∧
      ScalarHanded p arg e.events argument := by
  obtain ⟨arg, v, flag, request, before, opened, staged, harg, hpassed, hreadOnly, hv, hflag,
    hcalling⟩ := call_place he hc hp
  refine ⟨arg, ?_⟩
  have hflagged : flag = true := by
    simpa [readOnly, Parameter.isVector, hscalar] using hreadOnly.symm
  subst hflagged
  cases hpassed with
  | itself loose => exact absurd ⟨hscalar, hresolved⟩ loose.2
  | parts loose => exact absurd ⟨hscalar, hresolved⟩ loose.2
  | @cast t marshalled =>
      have hsingle : (Value.ofTensor t).isSingle = .ok (t.size == 1) :=
        Value.isSingle_array (.ofTensor t) marshalled.dimensions
      rcases hcalling.place hv hflag with
        ⟨hbyValue, element, helement, hargument⟩ | ⟨hbyValue, number, host, hside, hargument, hbuffer⟩
      · have hsize : t.size = 1 := by
          simpa using Except.ok.inj (hsingle.symm.trans hbyValue)
        obtain ⟨x, hcells, rfl⟩ := OpenCL.singleElement_ofTensor hsize helement
        exact ⟨_, harg, hargument, .element (marshalled.size_eq_one_iff.mp hsize) marshalled
          marshalled.storage hcells⟩
      · have hsize : t.size ≠ 1 := by
          simpa using Except.ok.inj (hsingle.symm.trans hbyValue)
        obtain ⟨t', ht, htensor⟩ := OpenCL.hostSide_collect hside
        cases ht
        rw [htensor] at hbuffer
        exact ⟨_, harg, hargument, .buffer (mt marshalled.size_eq_one_iff.mpr hsize) marshalled
          marshalled.storage hbuffer⟩

end Calls

/-- The second argument of the sample is one number, and is passed by value. -/
theorem sample_scalar :
    ∃ e ∈ (sampleOfThree.call openCL.recording sampleArguments false sampleWorld).exchanges
      sampleWorld, ∃ c ∈ e.calls, ∃ arg argument, sampleArguments[1]? = some arg ∧
        c.arguments[1]? = some argument ∧
        ScalarHanded ⟨"n", .inout, .scalar, "int", "int32"⟩ arg e.events argument := by
  obtain ⟨e, he, c, hc⟩ := sample_calls
  exact ⟨e, he, c, hc, call_scalar he hc rfl rfl (by decide +kernel)⟩

/-- A kernel with one scalar. -/
def sampleOfScalar : Kernel :=
  { Life.sample.kernel with
    interface := ⟨"f", "int n"⟩
    parameters := [⟨"n", .inout, .scalar, "int", "int32"⟩] }

/-- An in-place call with an array of two elements for the scalar parameter sets a buffer as
its native argument. -/
theorem array_for_scalar_is_buffered :
    ((sampleOfScalar.call openCL.recording
      [.array (.ofTensor ⟨.integer true .word, [2], [BitVec.ofNat 32 1, BitVec.ofNat 32 2], rfl⟩)]
      false sampleWorld).exchanges sampleWorld).flatMap
        (fun e => e.calls.map fun c => c.arguments.map Native.Argument.buffer?) = [[some 0]] := by
  decide +kernel

end Kernel

end KernelLaunch
