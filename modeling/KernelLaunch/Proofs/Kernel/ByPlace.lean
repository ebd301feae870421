import KernelLaunch.Proofs.Backend.Parallel
import KernelLaunch.Proofs.Kernel.Arguments

/-!
Copying calls position by position. Arguments are marshalled each in its position, and the
results of parameters that are not read only are returned in declaration order, joined to
complex arrays where the argument was complex.
-/

namespace KernelLaunch.Kernel

open Host Signature Backend

variable {σ : Type}

/-- The output for a result: joined to a complex array if the argument was complex. -/
inductive Decoded (arg : Value) (result : Result) : Result → Prop where
  | real (notComplex : arg.isComplex = .ok false) : Decoded arg result ⟨result.value, false⟩
  /-- Of an array, the first row holds the real parts and the second one the imaginary parts. -/
  | complex {t : Tensor} (isComplex : arg.isComplex = .ok true)
      (joined : result.value.join = .ok t)
      (rows : ∀ a, result.value = .array a → JoinedFrom a.tensor t) :
      Decoded arg result ⟨.ofTensor t, false⟩

/-- The positions of the output parameters, those that are not read only. -/
def writtenPlaces (ps : List Parameter) : List Nat :=
  (List.range ps.length).filter fun i => ps[i]?.any (!·.isInput)

/-- The outputs are the decoded results at the output positions, in declaration order. -/
def GivesBack (ps : List Parameter) (args : List Value) (results outs : List Result) : Prop :=
  List.Forall₂ (fun i out => ∃ arg result, args[i]? = some arg ∧ results[i]? = some result ∧
    Decoded arg result out) (writtenPlaces ps) outs

theorem writtenPlaces_cons (p : Parameter) (ps : List Parameter) :
    writtenPlaces (p :: ps) =
      (if p.isInput then [] else [0]) ++ (writtenPlaces ps).map (· + 1) := by
  have hshift : (List.range ps.length).filter
      ((fun i => (p :: ps)[i]?.any (!·.isInput)) ∘ (· + 1)) = writtenPlaces ps := rfl
  unfold writtenPlaces
  rw [List.length_cons, List.range_succ_eq_map, List.filter_cons, List.filter_map, hshift]
  cases h : p.isInput with
  | true =>
      simp only [List.getElem?_cons_zero, Option.any_some, h, Bool.not_true, Bool.false_eq_true,
        if_false, if_true, List.nil_append]
      rfl
  | false =>
      simp only [List.getElem?_cons_zero, Option.any_some, h, Bool.not_false, Bool.false_eq_true,
        if_false, if_true, List.singleton_append]
      rfl

theorem mem_writtenPlaces {ps : List Parameter} {i : Nat} :
    i ∈ writtenPlaces ps ↔ ∃ p, ps[i]? = some p ∧ p.isInput = false := by
  rw [writtenPlaces, List.mem_filter, List.mem_range]
  constructor
  · rintro ⟨hi, hwritten⟩
    rw [List.getElem?_eq_getElem hi, Option.any_some] at hwritten
    exact ⟨ps[i], List.getElem?_eq_getElem hi, by simpa using hwritten⟩
  · rintro ⟨p, hp, hwritten⟩
    obtain ⟨hi, _⟩ := List.getElem?_eq_some_iff.mp hp
    exact ⟨hi, by simp [hp, hwritten]⟩

theorem length_writtenPlaces (ps : List Parameter) :
    (writtenPlaces ps).length = (ps.filter (!·.isInput)).length := by
  induction ps with
  | nil => rfl
  | cons p ps ih =>
      rw [writtenPlaces_cons, List.length_append, List.length_map, ih, List.filter_cons]
      cases p.isInput with
      | true => simp
      | false => simp; omega

/-- One output for each parameter that may be written, from what stands in its
place. -/
theorem outputs_ok_iff {ps : List Parameter} {flags : List Bool} {passed : List Passed}
    {results outs : List Result} (hflags : flags.length = ps.length)
    (hpassed : passed.length = ps.length) (hresults : results.length = ps.length) :
    outputs ps flags passed results = .ok outs ↔
      List.Forall₂ (fun i out => ∃ c a result, flags[i]? = some c ∧ passed[i]? = some a ∧
        results[i]? = some result ∧ decode c a result = .ok out) (writtenPlaces ps) outs := by
  induction ps generalizing flags passed results outs with
  | nil =>
      rw [show writtenPlaces [] = [] from rfl, List.forall₂_nil_left_iff]
      exact ⟨fun h => (Except.ok.inj h).symm, fun h => congrArg Except.ok h.symm⟩
  | cons p ps ih =>
      obtain ⟨c, flags, rfl⟩ := List.exists_cons_of_length_eq_add_one hflags
      obtain ⟨a, passed, rfl⟩ := List.exists_cons_of_length_eq_add_one hpassed
      obtain ⟨result, results, rfl⟩ := List.exists_cons_of_length_eq_add_one hresults
      have hrest {outs : List Result} := @ih flags passed results outs (by simpa using hflags)
        (by simpa using hpassed) (by simpa using hresults)
      rw [outputs, writtenPlaces_cons]
      cases p.isInput with
      | true =>
          rw [if_pos rfl, if_pos rfl, List.nil_append, List.forall₂_map_left_iff]
          exact hrest
      | false =>
          rw [if_neg Bool.false_ne_true, if_neg Bool.false_ne_true, List.singleton_append,
            List.forall₂_cons_left_iff, Steps.bind_ok_iff]
          constructor
          · rintro ⟨out, hout, houts⟩
            obtain ⟨others, hothers, hresult⟩ := Steps.bind_ok_iff.mp houts
            refine ⟨out, others, ⟨c, a, result, rfl, rfl, rfl, hout⟩, ?_,
              (Except.ok.inj hresult).symm⟩
            rw [List.forall₂_map_left_iff]
            exact hrest.mp hothers
          · rintro ⟨out, others, ⟨_, _, _, hc, ha, hresult, hout⟩, hothers, rfl⟩
            cases hc
            cases ha
            cases hresult
            rw [List.forall₂_map_left_iff] at hothers
            exact ⟨out, hout, Steps.bind_ok_iff.mpr ⟨others, hrest.mpr hothers, rfl⟩⟩

theorem decode_fresh_iff {arg : Value} {c : Bool} (hc : arg.isComplex = .ok c) {t : Tensor}
    {result out : Result} : decode c (.fresh t) result = .ok out ↔ Decoded arg result out := by
  cases c with
  | false =>
      constructor
      · intro h
        cases h
        exact .real hc
      · rintro (⟨_⟩ | ⟨isComplex, _⟩)
        · rfl
        · cases hc.symm.trans isComplex
  | true =>
      constructor
      · intro h
        obtain ⟨joined, hjoined, hresult⟩ := Steps.bind_ok_iff.mp h
        cases hresult
        exact .complex hc hjoined fun a ha => Value.joinedFrom_array (ha ▸ hjoined)
      · rintro (⟨notComplex⟩ | ⟨_, joined, _⟩)
        · cases hc.symm.trans notComplex
        · exact Steps.bind_ok_iff.mpr ⟨_, joined, rfl⟩

section Copying

variable {b : Backend σ} {k : Kernel} {device : Device} {args : List Value} {p : Prepared}

/-- Which result an output is made from, and how, is a matter of its place. -/
theorem givesBack_iff (hcount : args.length = k.parameters.length)
    (h : k.prepare device args false = .ok p) {results outs : List Result}
    (hresults : results.length = args.length) :
    outputs k.parameters p.complex p.passed results = .ok outs ↔
      GivesBack k.parameters args results outs := by
  obtain ⟨⟨hcomplex, hpassed, _⟩, hplaces⟩ := prepare_inv hcount h
  rw [outputs_ok_iff (hcomplex.trans hcount) (hpassed.trans hcount) (hresults.trans hcount)]
  have hplace (i : Nat) (out : Result) :
      (∃ c a result, p.complex[i]? = some c ∧ p.passed[i]? = some a ∧ results[i]? = some result ∧
        decode c a result = .ok out) ↔
      ∃ arg result, args[i]? = some arg ∧ results[i]? = some result ∧ Decoded arg result out := by
    by_cases hi : i < args.length
    · have hparameter : i < k.parameters.length := hcount ▸ hi
      obtain ⟨c, passed, _, hc, hpassedAt, _, hplace⟩ :=
        hplaces i k.parameters[i] args[i] (List.getElem?_eq_getElem _)
          (List.getElem?_eq_getElem _)
      obtain ⟨t, _, rfl⟩ := hplace.cast
      simp only [hc, hpassedAt, List.getElem?_eq_getElem hi, Option.some.injEq,
        exists_and_left, exists_eq_left', decode_fresh_iff hplace.isComplex]
    · have hnone : results[i]? = none := List.getElem?_eq_none (by omega)
      simp [hnone]
  unfold GivesBack
  simp only [hplace]

/-- A successful copying call: one launch request with the marshalled arguments, and the
outputs decoded from its reply. -/
structure GoesThrough (b : Backend σ) (k : Kernel) (args : List Value) (w : World (Recorded σ))
    (request : RunRequest) (reply : Reply) (result : CallResult) : Prop where
  launches : (k.call b.recording args false w).launches w = [request]
  passesOn : PassesOn k.parameters args request
  answer : (b.recording.askRun request).perform ((k.ready b.recording).perform w).2 =
    (.ok reply, (k.call b.recording args false w).world)
  count : result.outputs.length = k.maxOutputs
  givesBack : GivesBack k.parameters args reply.results result.outputs

/-- The results that are looked at are as many as the arguments. -/
theorem length_results (hb : b.Parallel) (hcount : args.length = k.parameters.length)
    (h : k.prepare device args false = .ok p) {w after : World (Recorded σ)} {reply : Reply}
    (hrun : (b.recording.askRun (k.runRequest device p.passed p.flags)).perform w =
      (.ok reply, after)) : reply.results.length = args.length := by
  obtain ⟨hargs, hflags⟩ := (passesOn_of_prepare hcount h).counts
  exact (hb.recorded (hflags.trans hargs.symm) hrun).trans hargs

theorem call_returns (hb : b.Parallel) {w : World (Recorded σ)} {result : CallResult}
    (h : (k.call b.recording args false w).outcome = .ok result) :
    ∃ request reply, GoesThrough b k args w request reply result := by
  rcases reaches_or_fails b k args false w with ⟨device, before, p, hreaches⟩ | ⟨⟨e, herror⟩, _⟩
  · obtain ⟨hlaunches, asked, _, hcopying, hfinish⟩ := hreaches.launched
    obtain ⟨hcount, _, ⟨built, hready⟩, hprepare⟩ := hreaches
    rw [hcopying rfl, h] at hfinish
    cases hrun : (b.recording.askRun (k.runRequest device p.passed p.flags)).perform before with
    | mk answer after =>
        cases answer with
        | error e =>
            rw [finish_of_error hrun] at hfinish
            cases hfinish
        | ok reply =>
            rw [finish_of_reply hrun] at hfinish
            obtain ⟨houtcome, hworld⟩ := Prod.ext_iff.mp hfinish
            obtain ⟨outs, houts, rfl⟩ := Steps.map_ok_iff.mp houtcome
            have hresults := length_results hb hcount hprepare hrun
            have hgives := (givesBack_iff hcount hprepare hresults).mp houts
            refine ⟨_, reply, hlaunches, passesOn_of_prepare hcount hprepare, ?_, ?_, hgives⟩
            · rw [hready, hrun]
              exact Prod.ext rfl hworld
            · rw [maxOutputs, ← length_writtenPlaces]
              exact hgives.length_eq.symm
  · cases herror.symm.trans h

end Copying

/-- A kernel with a vector that it only reads, a scalar, and a vector that it may
write. -/
def sampleOfThree : Kernel :=
  { Life.sample.kernel with
    interface := ⟨"f", "global const int *a, int n, global float *z"⟩
    parameters := [⟨"a", .input, .vector, "int", "int32"⟩, ⟨"n", .inout, .scalar, "int", "int32"⟩,
      ⟨"z", .inout, .vector, "float", "float"⟩] }

/-- The machine with the source of the sample. -/
def sampleWorld : World (Recorded Machine) :=
  ⟨{ state := { files := { temporary :=
    ["kernel void f(global const int *a, int n, global float *z)"] } } }, []⟩

/-- Two integers, one more and a complex number. -/
def sampleArguments : List Value :=
  [.list [.int 3, .int 4], .int 5, .atom (.complex (.ofInt .double 1) (.ofInt .double 2))]

end KernelLaunch.Kernel
