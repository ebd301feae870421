import KernelLaunch.Kernel.Call
import KernelLaunch.Proofs.Action

/-!
Case analysis of builds: no request without a device and an option string, a failing
compilation, a compilation that does not report the kernel, or a successful one that is
recorded. All later proofs about builds and calls go by these cases.
-/

namespace KernelLaunch.Kernel

open Host Text Backend

variable {σ : Type}

/-- The plan of a build: the device, the option string of the kernel, and the compiler
options, which are the option string and the extra options of this build. -/
structure Planned (k : Kernel) (extra : Value) (device : Device) (options all : String) :
    Prop where
  hasDevice : k.device = some device
  hasOptions : k.optionString = .ok options
  allOptions : buildOptions options extra = .ok all

/-- A kernel with the record of a build. -/
def recorded (k : Kernel) (device : Device) (options : String) : Kernel :=
  { k with built := some ⟨device.index, options⟩ }

/-- The outcomes of a build. -/
inductive BuildRun (b : Backend σ) (k : Kernel) (extra : Value) (w : World σ) :
    Except Failure (Kernel × Device) × World σ → Prop where
  /-- No request: there is no device, or some option is no text. -/
  | refused {e : Failure} (unplanned : ∀ device options all, ¬ Planned k extra device options all) :
      BuildRun b k extra w (.error e, w)
  /-- The backend fails. -/
  | failed {device : Device} {options all : String} {e : Failure} {after : World σ}
      (plan : Planned k extra device options all)
      (asked : (b.askCompile ⟨device, k.source, all⟩).perform w = (.error e, after)) :
      BuildRun b k extra w (.error e, after)
  /-- The backend compiles, but finds no kernel of the name. -/
  | missing {device : Device} {options all : String} {names : List String} {after : World σ}
      (plan : Planned k extra device options all)
      (asked : (b.askCompile ⟨device, k.source, all⟩).perform w = (.ok names, after))
      (absent : k.name ∉ names) :
      BuildRun b k extra w (.error (.kernel (.missingFromBuild k.name names)), after)
  | built {device : Device} {options all : String} {names : List String} {after : World σ}
      (plan : Planned k extra device options all)
      (asked : (b.askCompile ⟨device, k.source, all⟩).perform w = (.ok names, after))
      (present : k.name ∈ names) :
      BuildRun b k extra w (.ok (k.recorded device options, device),
        { after with notes := after.notes ++ [.info (k.buildReport device all)] })

theorem build_run (b : Backend σ) (k : Kernel) (extra : Value) (w : World σ) :
    BuildRun b k extra w ((k.build b extra).perform w) := by
  unfold build
  split
  · next hdevice =>
    refine .refused fun _ _ _ plan => ?_
    cases hdevice.symm.trans plan.hasDevice
  · next device hdevice =>
    simp only [Action.perform_bind, Action.perform_lift]
    cases hoptions : k.optionString with
    | error e =>
        refine .refused fun _ _ _ plan => ?_
        cases hoptions.symm.trans plan.hasOptions
    | ok options =>
        cases hall : buildOptions options extra with
        | error e =>
            simp only [hall]
            refine .refused fun _ options' _ plan => ?_
            have hsame : options = options' := by
              simpa using hoptions.symm.trans plan.hasOptions
            subst hsame
            cases hall.symm.trans plan.allOptions
        | ok all =>
            have plan : Planned k extra device options all := ⟨hdevice, hoptions, hall⟩
            cases hasked : (b.askCompile ⟨device, k.source, all⟩).perform w with
            | mk answer after =>
                simp only [hall, hasked]
                cases answer with
                | error e => exact .failed plan hasked
                | ok names =>
                    by_cases hname : k.name ∈ names
                    · simp only [List.contains_eq_mem, hname, decide_true, if_true,
                        Action.perform_bind, Action.perform_note, Action.perform_pure]
                      exact .built plan hasked hname
                    · simp only [List.contains_eq_mem, hname, decide_false]
                      exact .missing plan hasked hname

section Ready

variable {k : Kernel} {device : Device} {options : String}

/-- A kernel with a device and an option string counts as built if its record
holds just these. -/
theorem builtFor?_eq (hdevice : k.device = some device) (hoptions : k.optionString = .ok options) :
    k.builtFor? = .ok (if k.built = some ⟨device.index, options⟩ then some device else none) := by
  unfold builtFor?
  cases hbuilt : k.built with
  | none => simp [hdevice]
  | some record =>
      obtain ⟨index, recordOptions⟩ := record
      by_cases hindex : device.index = index
      · by_cases hsame : options = recordOptions
        · simp [hdevice, hoptions, hindex, hsame, bind, Except.bind, pure, Except.pure]
        · simp [hdevice, hoptions, hindex, hsame, Ne.symm hsame, bind, Except.bind, pure,
            Except.pure]
      · simp [hdevice, hindex, Ne.symm hindex]

theorem builtFor?_eq_some_iff :
    k.builtFor? = .ok (some device) ↔
      k.device = some device ∧
        ∃ options, k.optionString = .ok options ∧ k.built = some ⟨device.index, options⟩ := by
  constructor
  · intro h
    unfold builtFor? at h
    cases hdevice : k.device with
    | none => simp [hdevice] at h
    | some own =>
        cases hbuilt : k.built with
        | none => simp [hdevice, hbuilt] at h
        | some record =>
            simp only [hdevice, hbuilt] at h
            split at h
            · next hindex =>
              cases hoptions : k.optionString with
              | error e => simp [hoptions, bind, Except.bind] at h
              | ok options =>
                  simp only [hoptions, bind, Except.bind, pure, Except.pure, Except.ok.injEq,
                    Option.ite_none_right_eq_some, Option.some.injEq] at h
                  obtain ⟨hsame, rfl⟩ := h
                  refine ⟨rfl, options, rfl, ?_⟩
                  rw [hindex, hsame]
            · cases h
  · rintro ⟨hdevice, options, hoptions, hbuilt⟩
    simp [builtFor?_eq hdevice hoptions, hbuilt]

/-- A kernel that is built is ready as it is. -/
theorem ready_of_built (b : Backend σ) (w : World σ) (h : k.builtFor? = .ok (some device)) :
    (k.ready b).perform w = (.ok (k, device), w) := by
  simp [ready, Action.perform_bind, h]

/-- A kernel that is not built is built without further options. -/
theorem ready_of_unbuilt (b : Backend σ) (w : World σ) (h : k.builtFor? = .ok none) :
    (k.ready b).perform w =
      (k.build b .absent).perform { w with notes := w.notes ++ [.info k.unbuiltReport] } := by
  simp [ready, Action.perform_bind, h]

theorem ready_of_error (b : Backend σ) (w : World σ) {e : Failure} (h : k.builtFor? = .error e) :
    (k.ready b).perform w = (.error e, w) := by
  simp [ready, Action.perform_bind, h]

/-- Without options for one build alone, the compiler gets the option string
without the blanks around it. -/
theorem buildOptions_absent (options : String) :
    buildOptions options .absent = .ok (String.ofList (trim options.toList)) := by
  simp [buildOptions, Value.asList, textsOf, spaced, joinWith, bind, Except.bind, pure, Except.pure]

end Ready

end KernelLaunch.Kernel
