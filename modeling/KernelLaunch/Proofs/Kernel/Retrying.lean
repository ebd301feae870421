import KernelLaunch.Proofs.Backend.Recovery
import KernelLaunch.Proofs.Kernel.FailedCalls

/-!
Retrying calls after native failures. A call that fails in its launch leaves the kernel
built, and one that fails in its build leaves it as it was. So the retry compiles nothing in
the first case and compiles again in the second, and without further failures it ends as the
first call would have.
-/

namespace KernelLaunch

open Host

/-- The same world with a machine on which no native operation fails. -/
def World.mended (w : World (Recorded Machine)) : World (Recorded Machine) :=
  { w with state := { w.state with state :=
      { w.state.state with setup := w.state.state.setup.mended } } }

namespace Kernel

open Backend Backend.OpenCL

section Recorded

variable {σ : Type} {b : Backend σ} {R : World σ → World σ → Prop}

/-- What a backend and its record come to goes by what the backend comes to. -/
theorem compile_recorded_simulates {request : CompileRequest}
    (h : Action.Simulates R (b.compile request) (b.compile request)) :
    Action.Simulates (fun w v => R w.erased v.erased) (b.recording.compile request)
      (b.recording.compile request) :=
  fun w v hR => h w.erased v.erased hR

theorem run_recorded_simulates {request : RunRequest}
    (h : Action.Simulates R (b.run request) (b.run request)) :
    Action.Simulates (fun w v => R w.erased v.erased) (b.recording.run request)
      (b.recording.run request) :=
  fun w v hR => h w.erased v.erased hR

/-- A backend is asked on the machine beside the record. -/
theorem askCompile_erased {request : CompileRequest} {w : World (Recorded σ)} {after : World σ}
    {outcome : Except Failure (List String)}
    (h : (b.compile request).perform ⟨w.state.state, w.notes ++ [.compile request]⟩ =
      (outcome, after)) :
    ∃ last, (b.recording.askCompile request).perform w = (outcome, last) ∧ last.erased = after :=
  ⟨((b.recording.askCompile request).perform w).2, Prod.ext (congrArg Prod.fst h :) rfl,
    (congrArg Prod.snd h :)⟩

theorem askRun_erased {request : RunRequest} {w : World (Recorded σ)} {after : World σ}
    {outcome : Except Failure Reply}
    (h : (b.run request).perform ⟨w.state.state, w.notes ++ [.run request]⟩ = (outcome, after)) :
    ∃ last, (b.recording.askRun request).perform w = (outcome, last) ∧ last.erased = after :=
  ⟨((b.recording.askRun request).perform w).2, Prod.ext (congrArg Prod.fst h :) rfl,
    (congrArg Prod.snd h :)⟩

theorem Planned.unique {k : Kernel} {extra : Value} {device device' : Device}
    {options options' all all' : String} (h : Planned k extra device options all)
    (h' : Planned k extra device' options' all') :
    device = device' ∧ options = options' ∧ all = all' := by
  cases h.hasDevice.symm.trans h'.hasDevice
  cases h.hasOptions.symm.trans h'.hasOptions
  cases h.allOptions.symm.trans h'.allOptions
  exact ⟨rfl, rfl, rfl⟩

/-- A call of a kernel that is not built makes one request to compile. -/
theorem compilations_of_stale (b : Backend σ) {k : Kernel} {args : List Value} {device : Device}
    {options all : String} (hcount : args.length = k.parameters.length)
    (stale : k.builtFor? = .ok none) (plan : Planned k .absent device options all) (inPlace : Bool)
    (w : World (Recorded σ)) :
    (k.call b.recording args inPlace w).compilations w = [⟨device, k.source, all⟩] := by
  obtain ⟨exchanges, hrecord, hcalling⟩ := call_record b k args inPlace w
  rw [Called.compilations, Called.exchanges, hrecord, List.drop_left]
  generalize (k.call b.recording args inPlace w).kernel = after at hcalling
  cases hcalling with
  | miscounted miscount => exact absurd hcount miscount
  | unclear unclear => cases stale.symm.trans unclear
  | current current => cases stale.symm.trans current
  | @stale k' compilation launch _ building launching =>
      have hlaunch : launch.filterMap Exchange.compileRequest? = [] := by
        rcases launching with rfl | ⟨_, _, _, _, _, rfl⟩ <;> rfl
      rw [List.filterMap_append, hlaunch, List.append_nil]
      cases building with
      | refused unplanned => exact absurd plan (unplanned _ _ _)
      | failed plan' =>
          obtain ⟨rfl, rfl, rfl⟩ := plan.unique plan'
          rfl
      | built plan' =>
          obtain ⟨rfl, rfl, rfl⟩ := plan.unique plan'
          rfl

end Recorded

section Likeness

variable {s : Setup} {w v : World (Recorded Machine)}

theorem alike_mended (w : World (Recorded Machine)) :
    Alike w.state.state.setup w.erased w.mended.erased := ⟨rfl, rfl, rfl, fun _ => rfl⟩

/-- What has been kept through a failure is as good as what a mended machine has had from the
start. -/
theorem alike_again {before before' after : World (Recorded Machine)}
    (h : Alike s before.erased before'.erased)
    (hafter : Surrounded before.state.state.files before.state.state.setup after.erased)
    (hkeeps : Keeps before.erased after.erased) :
    Alike s.mended before'.erased after.mended.erased where
  setup := h.mended
  mended := (congrArg Setup.mended (hafter.2.trans h.setup)).trans rfl
  files := hafter.1.trans h.files.symm
  known key := by
    have hprograms : after.mended.erased.state.openCL.programs =
        before.erased.state.openCL.programs := hkeeps.programs
    rw [hprograms, h.known key]

theorem ready_alike (hsound : s.buildError = none) (k : Kernel) (h : Alike s w.erased v.erased) :
    ((k.ready openCL.recording).perform w).1 = ((k.ready openCL.recording).perform v).1 ∧
      Alike s ((k.ready openCL.recording).perform w).2.erased
        ((k.ready openCL.recording).perform v).2.erased :=
  ready_simulates (R := fun w v => Alike s w.erased v.erased)
    (fun n _ _ h => Alike.note n _ _ h)
    (fun request => compile_recorded_simulates (Alike.compile hsound request)) k w v h

theorem launch_alike (k : Kernel) (device : Device) (args : List Value) (inPlace : Bool)
    (h : Alike s.mended w.erased v.erased) :
    ((k.launch openCL.recording device args inPlace).perform w).1 =
      ((k.launch openCL.recording device args inPlace).perform v).1 :=
  (launch_simulates (R := fun w v => Alike s.mended w.erased v.erased)
    (fun n _ _ h => Alike.note n _ _ h)
    (fun request => run_recorded_simulates (Alike.run request)) k device args inPlace w v h).1

theorem call_alike (k : Kernel) (args : List Value) (inPlace : Bool)
    (h : Alike s.mended w.erased v.erased) :
    (k.call openCL.recording args inPlace w).outcome =
      (k.call openCL.recording args inPlace v).outcome :=
  (call_simulates (R := fun w v => Alike s.mended w.erased v.erased)
    (fun n _ _ h => Alike.note n _ _ h)
    (fun request => compile_recorded_simulates (Alike.compile rfl request))
    (fun request => run_recorded_simulates (Alike.run request)) k args inPlace w v h).1

/-- A kernel that gets ready in spite of what may fail gets ready on the mended machine too. -/
theorem ready_mended {k built : Kernel} {device : Device} {before : World (Recorded Machine)}
    (h : (k.ready openCL.recording).perform w = (.ok (built, device), before)) :
    ∃ before', (k.ready openCL.recording).perform w.mended = (.ok (built, device), before') ∧
      Alike w.state.state.setup before.erased before'.erased := by
  cases hbuilt : k.builtFor? with
  | error e => cases (ready_of_error openCL.recording w hbuilt).symm.trans h
  | ok for? =>
      cases for? with
      | some own =>
          cases (ready_of_built openCL.recording w hbuilt).symm.trans h
          exact ⟨w.mended, ready_of_built openCL.recording w.mended hbuilt, alike_mended w⟩
      | none =>
          have hsound : w.state.state.setup.buildError = none := by
            rw [ready_of_unbuilt openCL.recording w hbuilt] at h
            have hrun := build_run openCL.recording k .absent
              { w with notes := w.notes ++ [.info k.unbuiltReport] }
            rw [h] at hrun
            cases hrun with
            | built _ asked => exact buildError_of_compiled (congrArg Prod.fst asked)
          obtain ⟨houtcome, hafter⟩ := ready_alike hsound k (alike_mended w)
          rw [h] at houtcome hafter
          exact ⟨((k.ready openCL.recording).perform w.mended).2, Prod.ext houtcome.symm rfl,
            hafter⟩

end Likeness

section Faults

/-- A native failure during a copying call: of the build that it starts, or of an operation of
its launch. -/
inductive CallFault (k : Kernel) (args : List Value) (w : World (Recorded Machine)) :
    KernelError → Prop where
  | build {device : Device} {options all why : String}
      (count : args.length = k.parameters.length) (stale : k.builtFor? = .ok none)
      (plan : Planned k .absent device options all)
      (fault : BuildFault ⟨device, k.source, all⟩ ⟨w.state.state, w.notes ++
        [.info k.unbuiltReport] ++ [.compile ⟨device, k.source, all⟩]⟩ why) :
      CallFault k args w (.build why)
  | launch {device : Device} {before : World (Recorded Machine)} {p : Prepared} {why : String}
      (reach : Reaches openCL k args false w device before p)
      (fault : NativeFault (k.runRequest device p.passed p.flags) ⟨before.state.state,
        before.notes ++ [.run (k.runRequest device p.passed p.flags)]⟩ why) :
      CallFault k args w (.execution why)

/-- A copying call with a native failure, and its retry on the machine without failures. -/
structure Retried (k : Kernel) (args : List Value) (w : World (Recorded Machine))
    (failure : KernelError) (failed again : Called (Recorded Machine)) : Prop where
  outcome : failed.outcome = .error (.kernel failure)
  /-- The kernel is as the build step has left it. -/
  kernel : failed.kernel = ((k.ready openCL.recording).perform w).1.toOption.elim k Prod.fst
  build : ∀ why, failure = .build why → failed.kernel = k ∧
    ∃ request, failed.compilations w = [request] ∧
      again.compilations failed.world.mended = [request]
  launch : ∀ why, failure = .execution why →
    (∃ device, failed.kernel.builtFor? = .ok (some device)) ∧
      again.compilations failed.world.mended = []
  again : again.outcome = (k.call openCL.recording args false w.mended).outcome

/-- The same call once more. -/
abbrev retry (args : List Value) (failed : Called (Recorded Machine)) : Called (Recorded Machine) :=
  failed.kernel.call openCL.recording args false failed.world.mended

variable {k : Kernel} {args : List Value} {w : World (Recorded Machine)} {why : String}

/-- The outcome of a call whose launch request fails in the backend. -/
theorem call_of_launch_fault {built : Kernel} {device : Device} {before : World (Recorded Machine)}
    {p : Prepared} (hcount : args.length = k.parameters.length)
    (hready : (k.ready openCL.recording).perform w = (.ok (built, device), before))
    (hprepare : k.prepare device args false = .ok p)
    (fault : NativeFault (k.runRequest device p.passed p.flags) ⟨before.state.state,
      before.notes ++ [.run (k.runRequest device p.passed p.flags)]⟩ why) :
    ∃ after, k.call openCL.recording args false w =
        ⟨.error (.kernel (.execution why)), built, after⟩ ∧
      Surrounded before.state.state.files before.state.state.setup after.erased ∧
      Keeps before.erased after.erased := by
  obtain ⟨failed, hfails, hkeeps⟩ := fault.run_keeps
  obtain ⟨asked, _, hasked, hcall⟩ := call_perform hcount hready false
  obtain rfl := hasked rfl
  have hsurrounded : Surrounded asked.state.state.files asked.state.state.setup
      ((OpenCL.run (k.runRequest device p.passed p.flags)).perform ⟨asked.state.state,
        asked.notes ++ [.run (k.runRequest device p.passed p.flags)]⟩).2 :=
    Surrounded.run _ _ ⟨rfl, rfl⟩
  have hfails' : (openCL.run (k.runRequest device p.passed p.flags)).perform ⟨asked.state.state,
    asked.notes ++ [.run (k.runRequest device p.passed p.flags)]⟩ = _ := hfails
  rw [hfails] at hsurrounded
  obtain ⟨last, hrun, rfl⟩ := askRun_erased hfails'
  rw [hprepare] at hcall
  dsimp only at hcall
  rw [finish_of_error hrun] at hcall
  exact ⟨last, hcall, hsurrounded, hkeeps.programs, hkeeps.queues⟩

theorem retried_of_launch {device : Device} {before : World (Recorded Machine)} {p : Prepared}
    (reach : Reaches openCL k args false w device before p)
    (fault : NativeFault (k.runRequest device p.passed p.flags) ⟨before.state.state,
      before.notes ++ [.run (k.runRequest device p.passed p.flags)]⟩ why) :
    Retried k args w (.execution why) (k.call openCL.recording args false w)
      (retry args (k.call openCL.recording args false w)) := by
  obtain ⟨hcount, hdevice, ⟨built, hready⟩, hprepare⟩ := reach
  obtain ⟨after, hcall, hsurrounded, hkeeps⟩ := call_of_launch_fault hcount hready hprepare fault
  obtain ⟨before', hready', halike⟩ := ready_mended hready
  obtain ⟨_, _, hreadied⟩ := ready_outcome openCL k w
  rw [hready] at hreadied
  have hbuilt : built.builtFor? = .ok (some device) := hreadied.builtFor.2
  have hparameters : built.parameters = k.parameters := by rw [hreadied.settings]
  rw [hcall]
  refine ⟨rfl, ?_, ?_, ?_, ?_⟩
  · rw [hready]
    rfl
  · rintro _ ⟨⟩
  · intro _ _
    exact ⟨⟨device, hbuilt⟩, compilations_of_built openCL hbuilt args false after.mended⟩
  · have hagain := call_of_ready (hcount.trans (congrArg List.length hparameters.symm))
      (ready_of_built openCL.recording after.mended hbuilt) false
    have hfirst := call_of_ready hcount hready' false
    rw [hfirst]
    refine (congrArg Called.outcome hagain).trans ?_
    exact (launch_alike built device args false (alike_again halike hsurrounded hkeeps)).symm

theorem retried_of_build {device : Device} {options all : String}
    (count : args.length = k.parameters.length) (stale : k.builtFor? = .ok none)
    (plan : Planned k .absent device options all)
    (fault : BuildFault ⟨device, k.source, all⟩ ⟨w.state.state, w.notes ++
      [.info k.unbuiltReport] ++ [.compile ⟨device, k.source, all⟩]⟩ why) :
    Retried k args w (.build why) (k.call openCL.recording args false w)
      (retry args (k.call openCL.recording args false w)) := by
  obtain ⟨failed, hfails, hkeeps⟩ := fault.compile_fails
  have hsurrounded : Surrounded w.state.state.files w.state.state.setup
      ((OpenCL.compile ⟨device, k.source, all⟩).perform ⟨w.state.state, w.notes ++
        [.info k.unbuiltReport] ++ [.compile ⟨device, k.source, all⟩]⟩).2 :=
    Surrounded.compile _ _ ⟨rfl, rfl⟩
  rw [hfails] at hsurrounded
  obtain ⟨after, hasked, rfl⟩ := askCompile_erased (b := openCL)
    (w := { w with notes := w.notes ++ [.info k.unbuiltReport] }) hfails
  have hready : (k.ready openCL.recording).perform w = (.error (.kernel (.build why)), after) := by
    rw [ready_of_unbuilt openCL.recording w stale]
    have hrun := build_run openCL.recording k .absent
      { w with notes := w.notes ++ [.info k.unbuiltReport] }
    generalize (k.build openCL.recording .absent).perform _ = result at hrun
    cases hrun with
    | refused unplanned => exact absurd plan (unplanned _ _ _)
    | failed plan' asked =>
        obtain ⟨rfl, rfl, rfl⟩ := plan.unique plan'
        cases asked.symm.trans hasked
        rfl
    | missing plan' asked =>
        obtain ⟨rfl, rfl, rfl⟩ := plan.unique plan'
        cases asked.symm.trans hasked
    | built plan' asked =>
        obtain ⟨rfl, rfl, rfl⟩ := plan.unique plan'
        cases asked.symm.trans hasked
  have hcall : k.call openCL.recording args false w =
      ⟨.error (.kernel (.build why)), k, after⟩ := call_of_unready count hready false
  have hcompilations := compilations_of_stale openCL count stale plan false
  refine ⟨?_, ?_, ?_, ?_, ?_⟩
  · rw [hcall]
  · rw [hcall, hready]
    rfl
  · intro _ _
    rw [hcall]
    refine ⟨rfl, _, ?_, hcompilations after.mended⟩
    rw [← hcall]
    exact hcompilations w
  · rintro _ ⟨⟩
  · rw [hcall]
    exact (call_alike k args false (alike_again (alike_mended w) hsurrounded
      ⟨hkeeps.programs, hkeeps.queues⟩)).symm

/-- The guarantees of the OpenCL backend under native failures. -/
structure WithstandsFaults (w : World (Recorded Machine)) : Prop where
  compile : ∀ request why, BuildFault request w.erased why →
    ∃ failed, (openCL.compile request).perform w.erased = (.error (.kernel (.build why)), failed) ∧
      Keeps w.erased failed
  run : ∀ request why, NativeFault request w.erased why →
    ∃ failed, (openCL.run request).perform w.erased =
        (.error (.kernel (.execution why)), failed) ∧ Keeps w.erased failed
  call : ∀ k args failure, CallFault k args w failure →
    Retried k args w failure (k.call openCL.recording args false w)
      (retry args (k.call openCL.recording args false w))

/-- Native failures are reported with their reason and leave programs, contexts and queues as
they were; the failed call can be retried, without a compilation if it was the launch that
failed. -/
theorem openCL_withstandsFaults (w : World (Recorded Machine)) : WithstandsFaults w where
  compile _ _ fault := fault.compile_fails
  run _ _ fault := fault.run_keeps
  call := by
    rintro k args _ (⟨count, stale, plan, fault⟩ | ⟨reach, fault⟩)
    · exact retried_of_build count stale plan fault
    · exact retried_of_launch reach fault

/-- A kernel with a vector that it only reads, and two that it may write. -/
def sampleOfWriters : Kernel :=
  { Life.sample.kernel with
    interface := ⟨"f", "global const int *a, global int *x, global int *y"⟩
    parameters := [⟨"a", .input, .vector, "int", "int32"⟩, ⟨"x", .inout, .vector, "int", "int32"⟩,
      ⟨"y", .inout, .vector, "int", "int32"⟩] }

def sampleText : String := "kernel void f(global const int *a, global int *x, global int *y)"

/-- Machines on which a kernel fills what it may write with the number of its place, if its
program has been built without options, and does nothing else. -/
def sampleSetup : Setup where
  work _ options _ place := if options = "" then filling (.ofNat 32 place) else .none

/-- The last buffer of a launch cannot be read back. -/
def sampleUnread : World (Recorded Machine) :=
  ⟨{ state :=
      { setup := { sampleSetup with copyError := fun n => if n = 2 then some "lost" else none }
        openCL := { programs := [((0, "f"), ⟨7, sampleText, ""⟩)] } } }, []⟩

/-- No program can be built. -/
def sampleUnbuilt : World (Recorded Machine) :=
  ⟨{ state :=
      { files := { temporary := [sampleText] }
        setup := { sampleSetup with buildError := some "broken" } } }, []⟩

def sampleRows : List Value := [.list [.int 3, .int 4], .list [.int 1, .int 2], .list [.int 6]]

/-- The kernel after a build without options. -/
def sampleBuilt : Kernel := { sampleOfWriters with built := some ⟨0, ""⟩ }

/-- What the kernel passes on. -/
def samplePrepared : Prepared where
  complex := [false, false, false]
  passed := [.fresh (Life.sampleRow (.integer true .word) [3#32, 4#32]),
    .fresh (Life.sampleRow (.integer true .word) [1#32, 2#32]),
    .fresh (Life.sampleRow (.integer true .word) [6#32])]
  flags := [true, false, false]

/-- The answers of the kernel of the program that has been built without options. -/
def sampleFilled : List Value :=
  [.ofTensor (Life.sampleRow (.integer true .word) [1#32, 1#32]),
    .ofTensor (Life.sampleRow (.integer true .word) [2#32])]

/-- A launch whose last buffer is not read back is repeated with the program that there is, and
after a build that fails there is one to be built; the kernel of its program then answers. -/
theorem sample_withstandsFaults :
    (CallFault sampleBuilt sampleRows sampleUnread (.execution "lost") ∧
      Retried sampleBuilt sampleRows sampleUnread (.execution "lost")
        (sampleBuilt.call openCL.recording sampleRows false sampleUnread)
        (retry sampleRows (sampleBuilt.call openCL.recording sampleRows false sampleUnread)) ∧
      (retry sampleRows
        (sampleBuilt.call openCL.recording sampleRows false sampleUnread)).outcome.map
          (·.outputs.map (·.value)) = .ok sampleFilled) ∧
    CallFault sampleOfWriters sampleRows sampleUnbuilt (.build "broken") ∧
      Retried sampleOfWriters sampleRows sampleUnbuilt (.build "broken")
        (sampleOfWriters.call openCL.recording sampleRows false sampleUnbuilt)
        (retry sampleRows
          (sampleOfWriters.call openCL.recording sampleRows false sampleUnbuilt)) ∧
      (retry sampleRows
        (sampleOfWriters.call openCL.recording sampleRows false sampleUnbuilt)).outcome.map
          (·.outputs.map (·.value)) = .ok sampleFilled := by
  have hbuilt : sampleBuilt.builtFor? = .ok (some ⟨0, "P", Life.sampleNative "first"⟩) := by rfl
  have unread : CallFault sampleBuilt sampleRows sampleUnread (.execution "lost") := by
    refine .launch (p := samplePrepared)
      ⟨rfl, rfl, ⟨sampleBuilt, ready_of_built openCL.recording sampleUnread hbuilt⟩, rfl⟩ ?_
    generalize hworld : World.mk _ _ = asked
    obtain ⟨failed, hfails⟩ : ∃ failed, (transfer (sampleBuilt.runRequest
        ⟨0, "P", Life.sampleNative "first"⟩ samplePrepared.passed samplePrepared.flags)).perform
          asked = (.error (.kernel (.execution "lost")), failed) := by
      subst hworld
      exact ⟨_, rfl⟩
    have hfits : ∀ item ∈ flagged (sampleBuilt.runRequest ⟨0, "P", Life.sampleNative "first"⟩
        samplePrepared.passed samplePrepared.flags), ∃ p, passage item.1 item.2 = .ok p :=
      List.forall_mem_cons.mpr ⟨⟨_, rfl⟩, List.forall_mem_cons.mpr ⟨⟨_, rfl⟩,
        List.forall_mem_cons.mpr ⟨⟨_, rfl⟩, nofun⟩⟩⟩
    have hknown : asked.state.openCL.programs.lookup (0, "f") = some ⟨7, sampleText, ""⟩ := by
      subst hworld
      rfl
    obtain ⟨why, heq, hfault⟩ := NativeFault.of_fails hknown hfits hfails
    cases heq
    exact hfault
  have unbuilt : CallFault sampleOfWriters sampleRows sampleUnbuilt (.build "broken") :=
    .build rfl rfl ⟨rfl, rfl, rfl⟩ (.building rfl rfl rfl)
  exact ⟨⟨unread, (openCL_withstandsFaults sampleUnread).call _ _ _ unread, rfl⟩,
    unbuilt, (openCL_withstandsFaults sampleUnbuilt).call _ _ _ unbuilt, rfl⟩

end Faults

end Kernel

end KernelLaunch
