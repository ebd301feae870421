import KernelLaunch.Proofs.Backend.Recording
import KernelLaunch.Proofs.Kernel.Launch

/-!
Exchanges between a kernel and its backend during a build or a call: at most one
compilation, and after it at most one launch.
-/

namespace KernelLaunch

open Host Backend Kernel

variable {σ : Type}

/-- A compilation that went well: what was asked for, which kernels there are,
and what was noted meanwhile. -/
structure Compilation where
  request : CompileRequest
  names : List String
  events : List Note

namespace Exchange

/-- The compilation, if it is one that went well. -/
def compilation? : Exchange → Option Compilation
  | .compile request (.ok names) events => some ⟨request, names, events⟩
  | _ => none

/-- The compilation, if it went well and has found a kernel of some name. -/
def compiled? (name : String) (e : Exchange) : Option Compilation :=
  e.compilation?.filter (name ∈ ·.names)

/-- The request of a compilation, whatever came of it. -/
def compileRequest? : Exchange → Option CompileRequest
  | .compile request _ _ => some request
  | .run _ _ => none

/-- The request of a launch. -/
def runRequest? : Exchange → Option RunRequest
  | .run request _ => some request
  | .compile _ _ _ => none

end Exchange

namespace Kernel

/-- What passes during a build, and the kernel after it. -/
inductive Building (k : Kernel) (extra : Value) : Kernel → List Exchange → Prop where
  | refused (unplanned : ∀ device options all, ¬ Planned k extra device options all) :
      Building k extra k []
  | failed {device : Device} {options all : String} {answer : Except Failure (List String)}
      {events : List Note} (plan : Planned k extra device options all)
      (failure : ∀ names, answer = .ok names → k.name ∉ names) :
      Building k extra k [.compile ⟨device, k.source, all⟩ answer events]
  | built {device : Device} {options all : String} {names : List String} {events : List Note}
      (plan : Planned k extra device options all) (present : k.name ∈ names) :
      Building k extra (k.recorded device options)
        [.compile ⟨device, k.source, all⟩ (.ok names) events]

/-- What passes during a launch: the request, unless something fails before. -/
def Launching (k : Kernel) (exchanges : List Exchange) : Prop :=
  exchanges = [] ∨ ∃ device passed flags events, k.builtFor? = .ok (some device) ∧
    exchanges = [.run (k.runRequest device passed flags) events]

/-- What passes during a call, and the kernel after it. -/
inductive Calling (k : Kernel) (args : List Value) : Kernel → List Exchange → Prop where
  | miscounted (count : args.length ≠ k.parameters.length) : Calling k args k []
  | unclear {e : Failure} (unclear : k.builtFor? = .error e) : Calling k args k []
  | current {device : Device} {launch : List Exchange}
      (current : k.builtFor? = .ok (some device)) (launching : Launching k launch) :
      Calling k args k launch
  | stale {k' : Kernel} {compilation launch : List Exchange}
      (stale : k.builtFor? = .ok none) (building : Building k .absent k' compilation)
      (launching : Launching k' launch) : Calling k args k' (compilation ++ launch)

theorem Building.settings {k k' : Kernel} {extra : Value} {exchanges : List Exchange}
    (h : Building k extra k' exchanges) :
    k'.source = k.source ∧ k'.optionString = k.optionString ∧ k'.name = k.name := by
  cases h <;> exact ⟨rfl, rfl, rfl⟩

/-- A call changes no settings. -/
theorem Calling.settings {k k' : Kernel} {args : List Value} {exchanges : List Exchange}
    (h : Calling k args k' exchanges) :
    k'.source = k.source ∧ k'.optionString = k.optionString ∧ k'.name = k.name := by
  cases h with
  | stale _ building => exact building.settings
  | _ => exact ⟨rfl, rfl, rfl⟩

theorem Building.no_run {k k' : Kernel} {extra : Value} {exchanges : List Exchange}
    (h : Building k extra k' exchanges) {e : Exchange} (he : e ∈ exchanges) :
    e.runRequest? = none := by
  cases h with
  | refused => cases he
  | failed => rw [List.mem_singleton.mp he]; rfl
  | built => rw [List.mem_singleton.mp he]; rfl

theorem Launching.launched {k : Kernel} {launch : List Exchange} (h : Launching k launch)
    {e : Exchange} {request : RunRequest} (he : e ∈ launch)
    (hrequest : e.runRequest? = some request) :
    k.builtFor? = .ok (some request.device) ∧ request.name = k.name ∧ launch = [e] := by
  obtain rfl | ⟨device, passed, flags, events, hbuilt, rfl⟩ := h
  · cases he
  · obtain rfl := List.mem_singleton.mp he
    cases hrequest
    exact ⟨hbuilt, rfl, rfl⟩

/-- A launch ends a call, and the kernel is built then. -/
theorem Calling.launched {k k' : Kernel} {args : List Value} {exchanges : List Exchange}
    (h : Calling k args k' exchanges) {e : Exchange} {request : RunRequest} (he : e ∈ exchanges)
    (hrequest : e.runRequest? = some request) :
    k'.builtFor? = .ok (some request.device) ∧ request.name = k'.name ∧
      ∃ before, exchanges = before ++ [e] := by
  cases h with
  | miscounted => cases he
  | unclear => cases he
  | current _ launching =>
      obtain ⟨hbuilt, hname, rfl⟩ := launching.launched he hrequest
      exact ⟨hbuilt, hname, [], rfl⟩
  | @stale _ compilation _ _ building launching =>
      rcases List.mem_append.mp he with he | he
      · cases (building.no_run he).symm.trans hrequest
      · obtain ⟨hbuilt, hname, rfl⟩ := launching.launched he hrequest
        exact ⟨hbuilt, hname, compilation, rfl⟩

theorem recorded_builtFor? {k : Kernel} {extra : Value} {device : Device} {options all : String}
    (plan : Planned k extra device options all) :
    (k.recorded device options).builtFor? = .ok (some device) :=
  builtFor?_eq_some_iff.mpr ⟨plan.hasDevice, options, plan.hasOptions, rfl⟩

/-- The record of a compilation is its request with the answer. -/
theorem askCompile_record (b : Backend σ) (request : CompileRequest) (w : World (Recorded σ)) :
    ∃ events, ((b.recording.askCompile request).perform w).2.state.record =
      w.state.record ++
        [.compile request ((b.recording.askCompile request).perform w).1 events] := ⟨_, rfl⟩

theorem askRun_record (b : Backend σ) (request : RunRequest) (w : World (Recorded σ)) :
    ∃ events, ((b.recording.askRun request).perform w).2.state.record =
      w.state.record ++ [.run request events] := ⟨_, rfl⟩

/-- What a build adds to the record, with the kernel after it. -/
theorem build_record (b : Backend σ) (k : Kernel) (extra : Value) (w : World (Recorded σ)) :
    ∃ exchanges,
      ((k.build b.recording extra).perform w).2.state.record = w.state.record ++ exchanges ∧
      match ((k.build b.recording extra).perform w).1 with
      | .ok (built, device) => Building k extra built exchanges ∧
          built.builtFor? = .ok (some device)
      | .error _ => Building k extra k exchanges := by
  have hrun := build_run b.recording k extra w
  generalize (k.build b.recording extra).perform w = result at hrun
  cases hrun with
  | refused unplanned => exact ⟨[], by simp, .refused unplanned⟩
  | @failed device options all e after plan asked =>
      obtain ⟨events, hrecord⟩ := askCompile_record b ⟨device, k.source, all⟩ w
      rw [asked] at hrecord
      exact ⟨_, hrecord, .failed plan (by simp)⟩
  | @missing device options all names after plan asked absent =>
      obtain ⟨events, hrecord⟩ := askCompile_record b ⟨device, k.source, all⟩ w
      rw [asked] at hrecord
      refine ⟨_, hrecord, .failed plan ?_⟩
      rintro names' hnames
      cases hnames
      exact absent
  | @built device options all names after plan asked present =>
      obtain ⟨events, hrecord⟩ := askCompile_record b ⟨device, k.source, all⟩ w
      rw [asked] at hrecord
      exact ⟨_, hrecord, .built plan present, recorded_builtFor? plan⟩

theorem launch_record (b : Backend σ) (k : Kernel) (device : Device) (args : List Value)
    (inPlace : Bool) (w : World (Recorded σ)) (hbuilt : k.builtFor? = .ok (some device))
    {outcome : Except Failure CallResult} {after : World (Recorded σ)}
    (run : LaunchRun b.recording k device args inPlace w (outcome, after)) :
    ∃ exchanges, after.state.record = w.state.record ++ exchanges ∧ Launching k exchanges := by
  cases run with
  | refused untouched => exact ⟨[], by simp [untouched], .inl rfl⟩
  | @asked _ flags passed before _ _ _ _ untouched _ ran =>
      obtain ⟨events, hrecord⟩ := askRun_record b (k.runRequest device passed flags) before
      rw [ran, untouched] at hrecord
      exact ⟨_, hrecord, .inr ⟨device, passed, flags, events, hbuilt, rfl⟩⟩

/-- What a call adds to the record, with the kernel after it. -/
theorem call_record (b : Backend σ) (k : Kernel) (args : List Value) (inPlace : Bool)
    (w : World (Recorded σ)) :
    ∃ exchanges,
      (k.call b.recording args inPlace w).world.state.record = w.state.record ++ exchanges ∧
      Calling k args (k.call b.recording args inPlace w).kernel exchanges := by
  have hcall := call_run b.recording k args inPlace w
  generalize k.call b.recording args inPlace w = called at hcall
  cases hbuilt : k.builtFor? with
  | error e =>
      have hunready := ready_of_error b.recording w hbuilt
      cases hcall with
      | miscounted => exact ⟨[], by simp, .unclear hbuilt⟩
      | unready _ ready =>
          cases hunready.symm.trans ready
          exact ⟨[], by simp, .unclear hbuilt⟩
      | launched _ ready => cases hunready.symm.trans ready
  | ok for? =>
      cases for? with
      | some device =>
          have hready := ready_of_built b.recording w hbuilt
          cases hcall with
          | miscounted count => exact ⟨[], by simp, .miscounted count⟩
          | unready _ ready => cases hready.symm.trans ready
          | launched _ ready run =>
              cases hready.symm.trans ready
              obtain ⟨exchanges, hrecord, hlaunch⟩ := launch_record b k device args inPlace w hbuilt run
              exact ⟨exchanges, hrecord, .current hbuilt hlaunch⟩
      | none =>
          have hready := ready_of_unbuilt b.recording w hbuilt
          obtain ⟨compilation, hcompile, hbuilding⟩ := build_record b k .absent
            { w with notes := w.notes ++ [.info k.unbuiltReport] }
          rw [← hready] at hcompile hbuilding
          cases hcall with
          | miscounted count => exact ⟨[], by simp, .miscounted count⟩
          | unready _ ready =>
              rw [ready] at hcompile hbuilding
              have hstale : Calling k args k (compilation ++ []) :=
                .stale hbuilt hbuilding (.inl rfl)
              rw [List.append_nil] at hstale
              exact ⟨compilation, hcompile, hstale⟩
          | @launched built device before after outcome _ ready run =>
              rw [ready] at hcompile hbuilding
              obtain ⟨launch, hrecord, hlaunch⟩ :=
                launch_record b built device args inPlace before hbuilding.2 run
              refine ⟨compilation ++ launch, ?_, .stale hbuilt hbuilding.1 hlaunch⟩
              rw [hrecord, hcompile, List.append_assoc]

end Kernel

end KernelLaunch
