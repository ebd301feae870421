import KernelLaunch.Proofs.Backend.Homes
import KernelLaunch.Proofs.Backend.Settled
import KernelLaunch.Proofs.Backend.Transfers

/-!
Recovery from native failures. A failed build or launch leaves the program table as it is
and closes no context or queue. Later replies depend on programs, files and setup only, so
once the failure is gone the backend answers as if it had never occurred.
-/

namespace KernelLaunch

/-- The setup in which no native operation fails. -/
def Setup.mended (s : Setup) : Setup :=
  { s with
    buildError := none
    runError := none
    bufferError := fun _ => none
    copyError := fun _ => none }

/-- What a program has been built from: a source text and options. -/
def Native.Program.origin (p : Native.Program) : String × String := (p.source, p.options)

/-- What the kernels of a program do depends on what it has been built from. -/
theorem Native.Program.effect_congr {p q : Native.Program} (h : p.origin = q.origin) (s : Setup)
    (kernel : String) : p.effect s kernel = q.effect s kernel := by
  obtain ⟨number, source, options⟩ := p
  cases h
  rfl

namespace Backend.OpenCL

open Host

section Faults

/-- A compilation whose native build fails. -/
inductive BuildFault (request : CompileRequest) (w : World Machine) (why : String) : Prop where
  | building {text : String} {opened : Nat × Nat} {before failed : World Machine}
      (read : w.state.files.read? request.source = some text)
      (opens : (queueFor request.device).perform w = (.ok opened, before))
      (fails : (Native.build opened.1 text request.options).perform before =
        (.ok (.error why), failed))

/-- The program table is unchanged, and every open context and queue is still open. -/
structure Keeps (w after : World Machine) : Prop where
  programs : after.state.openCL.programs = w.state.openCL.programs
  queues : ∀ index opened, w.state.openCL.queues.lookup index = some opened →
    after.state.openCL.queues.lookup index = some opened

variable {w after : World Machine} {notes : List Note}

theorem Opened.keeps {device : Device} {opened : Nat × Nat}
    (h : Opened device w opened notes after) : Keeps w after := by
  refine ⟨h.programs_eq, fun index known hknown => ?_⟩
  by_cases hindex : device.index = index
  · subst hindex
    cases h with
    | already => exact hknown
    | now hnone => cases hnone.symm.trans hknown
  · rw [h.lookup_of_ne hindex, hknown]

theorem Keeps.of_openCL {before : World Machine} (h : Keeps w before)
    (heq : after.state.openCL = before.state.openCL) : Keeps w after := by
  refine ⟨?_, fun index opened hknown => ?_⟩
  · rw [heq, h.programs]
  · rw [heq, h.queues index opened hknown]

/-- A launch takes nothing away, whatever comes of it. -/
theorem Running.keeps {request : RunRequest} {outcome : Except Failure Reply}
    (h : Running request w outcome notes after) : Keeps w after := by
  cases h with
  | unknown => exact ⟨rfl, fun _ _ h => h⟩
  | refused _ opens adds => exact opens.keeps.of_openCL adds.openCL
  | called _ opens adds => exact opens.keeps.of_openCL adds.openCL

/-- A compilation that fails takes nothing away. -/
theorem Compiling.keeps {request : CompileRequest} {e : Failure}
    (h : Compiling request w (.error e) notes after) : Keeps w after := by
  cases h with
  | unread => exact ⟨rfl, fun _ _ h => h⟩
  | broken _ opens openCL => exact opens.keeps.of_openCL openCL

/-- The failure of a native build is the failure of the compilation. -/
theorem BuildFault.compile_fails {request : CompileRequest} {why : String}
    (h : BuildFault request w why) :
    ∃ failed, (compile request).perform w = (.error (.kernel (.build why)), failed) ∧
      Keeps w failed := by
  obtain ⟨outcome, notes, failed, hcompile, hcompiling⟩ := compile_perform request w
  obtain ⟨read, opens, fails⟩ := h
  rename_i text opened before failed'
  have hread : (Machine.read request.source).perform w = (.ok text, w) := by
    simp [Machine.read, Action.perform_bind, read]
  have hfails : (compile request).perform w = (.error (.kernel (.build why)),
      { failed' with notes := failed'.notes ++ [.error (buildReport text request.options)] }) := by
    unfold compile
    rw [Action.perform_bind_goes hread, Action.perform_bind_goes opens]
    dsimp only
    rw [Action.perform_bind_goes fails]
    rfl
  cases hcompile.symm.trans hfails
  exact ⟨_, hfails, hcompiling.keeps⟩

theorem NativeFault.run_keeps {request : RunRequest} {why : String}
    (h : NativeFault request w why) :
    ∃ failed, (run request).perform w = (.error (.kernel (.execution why)), failed) ∧
      Keeps w failed := by
  obtain ⟨outcome, notes, failed, hrun, hrunning⟩ := run_perform request w
  obtain ⟨failed', hfails⟩ := h.run_fails
  cases hrun.symm.trans hfails
  exact ⟨failed, hrun, hrunning.keeps⟩

end Faults

section Likeness

/-- Two machines with the same files whose program tables agree in keys, source texts and
options. The first has a given setup, and on the second no native operation fails. -/
structure Alike (s : Setup) (w v : World Machine) : Prop where
  setup : w.state.setup = s
  mended : v.state.setup = s.mended
  files : v.state.files = w.state.files
  known : ∀ key, (v.state.openCL.programs.lookup key).map Native.Program.origin =
    (w.state.openCL.programs.lookup key).map Native.Program.origin

variable {s : Setup}

theorem Alike.note (n : Note) : Action.Simulates (Alike s) (Action.note n) (Action.note n) :=
  fun _ _ h => ⟨rfl, h.setup, h.mended, h.files, h.known⟩

/-- Files and setups stay as they are, so machines stay alike if their programs do. -/
theorem Alike.step {w v w' v' : World Machine} (h : Alike s w v)
    (hw : Surrounded w.state.files w.state.setup w')
    (hv : Surrounded v.state.files v.state.setup v')
    (known : ∀ key, (v'.state.openCL.programs.lookup key).map Native.Program.origin =
      (w'.state.openCL.programs.lookup key).map Native.Program.origin) : Alike s w' v' where
  setup := hw.2.trans h.setup
  mended := hv.2.trans h.mended
  files := by rw [hv.1, hw.1, h.files]
  known := known

/-- A build does not fail if a compilation has gone well. -/
theorem buildError_of_compiled {request : CompileRequest} {w : World Machine} {names : List String}
    (h : ((openCL.compile request).perform w).1 = .ok names) : w.state.setup.buildError = none := by
  rw [(openCL_settled w.state.files w.state.setup).answers request w ⟨rfl, rfl⟩] at h
  obtain ⟨found, _, h⟩ := Steps.bind_ok_iff.mp h
  split at h
  · cases h
  · next hnone => exact hnone

/-- What can be compiled on the first machine is compiled on the second with the same
outcome. -/
theorem Alike.compile (hsound : s.buildError = none) (request : CompileRequest) :
    Action.Simulates (Alike s) (openCL.compile request) (openCL.compile request) := by
  intro w v h
  obtain ⟨outcome, notes, after, hw, hcompiling⟩ := compile_perform request w
  obtain ⟨outcome', notes', after', hv, hcompiling'⟩ := compile_perform request v
  have hkept : Surrounded _ _ ((OpenCL.compile request).perform w).2 :=
    Surrounded.compile request w ⟨rfl, rfl⟩
  have hkept' : Surrounded _ _ ((OpenCL.compile request).perform v).2 :=
    Surrounded.compile request v ⟨rfl, rfl⟩
  change ((OpenCL.compile request).perform w).1 = ((OpenCL.compile request).perform v).1 ∧
    Alike s ((OpenCL.compile request).perform w).2 ((OpenCL.compile request).perform v).2
  rw [hw] at hkept ⊢
  rw [hv] at hkept' ⊢
  -- Neither build fails, and both read the same text or none.
  cases hcompiling with
  | broken _ _ _ _ broken => cases (h.setup ▸ hsound).symm.trans broken
  | unread unread =>
      cases hcompiling' with
      | broken _ _ _ _ broken => cases (h.mended ▸ broken : s.mended.buildError = _)
      | unread => exact ⟨rfl, h⟩
      | compiled read => cases unread.symm.trans (h.files ▸ read)
  | @compiled text _ _ _ _ read _ _ programs =>
      cases hcompiling' with
      | broken _ _ _ _ broken => cases (h.mended ▸ broken : s.mended.buildError = _)
      | unread unread => cases read.symm.trans (h.files ▸ unread)
      | @compiled text' _ _ _ _ read' _ _ programs' =>
          cases read.symm.trans (h.files ▸ read')
          have hnames : v.state.setup.kernelsOf text = w.state.setup.kernelsOf text := by
            rw [h.setup, h.mended]
            rfl
          refine ⟨congrArg Except.ok hnames.symm, h.step hkept hkept' fun key => ?_⟩
          rw [programs, programs', lookup_withProgram, lookup_withProgram, hnames]
          split
          · rfl
          · exact h.known key

/-- On a mended machine no native operation fails. -/
theorem sound_of_mended {w : World Machine} (h : w.state.setup = s.mended) (request : RunRequest)
    (why : String) : ¬ NativeFault request w why := by
  intro hfault
  have hcause := hfault.cause
  rw [h] at hcause
  rcases hcause with ⟨_, hcreate⟩ | hcall | ⟨_, hcopy⟩
  · cases hcreate
  · cases hcall
  · cases hcopy

/-- Where no native operation fails, a launch has the same outcome on machines that are
alike. -/
theorem Alike.run (request : RunRequest) :
    Action.Simulates (Alike s.mended) (openCL.run request) (openCL.run request) := by
  intro w v h
  obtain ⟨outcome, notes, after, hw, hrunning⟩ := run_perform request w
  obtain ⟨outcome', notes', after', hv, hrunning'⟩ := run_perform request v
  have hkept : Surrounded _ _ ((OpenCL.run request).perform w).2 :=
    Surrounded.run request w ⟨rfl, rfl⟩
  have hkept' : Surrounded _ _ ((OpenCL.run request).perform v).2 :=
    Surrounded.run request v ⟨rfl, rfl⟩
  have hknown := h.known (request.device.index, request.name)
  have houtcome : ((OpenCL.run request).perform w).1 = ((OpenCL.run request).perform v).1 := by
    cases hprogram : w.state.openCL.programs.lookup (request.device.index, request.name) with
    | none =>
        rw [hprogram] at hknown
        have hprogram' := Option.map_eq_none_iff.mp hknown
        rw [run_perform_eq, run_perform_eq, transfer_of_unknown hprogram,
          transfer_of_unknown hprogram']
    | some program =>
        rw [hprogram] at hknown
        obtain ⟨program', hprogram', horigin⟩ := Option.map_eq_some_iff.mp hknown
        rw [run_outcome hprogram (sound_of_mended h.setup request),
          run_outcome hprogram' (sound_of_mended h.mended request), h.setup, h.mended,
          Native.Program.effect_congr horigin]
        rfl
  refine ⟨houtcome, h.step hkept hkept' fun key => ?_⟩
  change (((OpenCL.run request).perform v).2.state.openCL.programs.lookup key).map _ =
    (((OpenCL.run request).perform w).2.state.openCL.programs.lookup key).map _
  rw [hv, hw, hrunning'.programs_eq.1, hrunning.programs_eq.1, h.known key]

end Likeness

end Backend.OpenCL

end KernelLaunch
