import KernelLaunch.Proofs.Kernel.Ensemble

/-!
Which program a kernel runs on a shared OpenCL backend. Each kernel has its own build
record, but the program table is shared and keyed by device index and kernel name. The main
statement is that a kernel always relies on a build of its own source and options, and that
a launch runs the program of this build if and only if no later compilation reported a
kernel of the same name for the same index.
-/

namespace KernelLaunch

open Host Device Backend Kernel

/-- A kernel with its settings could have asked for a compilation: it has read
the source of the kernel, with the options that the kernel has now and some that
are given for a build alone, and has found the kernel. -/
structure Compilation.Fits (c : Compilation) (k : Kernel) (extra : Value) : Prop where
  source : c.request.source = k.source
  options : ∃ options, k.optionString = .ok options ∧
    buildOptions options extra = .ok c.request.options
  present : k.name ∈ c.names

/-- A launch relies on a build that fits the kernel, and is for its index and
under its name. -/
theorem Life.Consistent.launched_fits {σ : Type} {l : Life σ} (h : l.Consistent) {k : Kernel}
    {args : List Value} {exchanges : List Exchange} (calling : Calling k args l.kernel exchanges)
    {e : Exchange} {request : RunRequest} (he : e ∈ exchanges)
    (hrequest : e.runRequest? = some request) :
    request.name = k.name ∧ ∃ own, l.lastBuild = some own ∧ own.Fits k own.extra ∧
      own.request.device.index = request.device.index := by
  obtain ⟨hbuilt, hname, _⟩ := calling.launched he hrequest
  obtain ⟨hsource, hoptions, hkernel⟩ := calling.settings
  obtain ⟨_, own, hlast, hown, hindex⟩ := h.lastBuild_of_built hbuilt
  obtain ⟨hownSource, hall, hpresent⟩ := h.build own hlast
  refine ⟨hname.trans hkernel, own, hlast, ⟨hownSource.trans hsource, ?_, hkernel ▸ hpresent⟩,
    hindex⟩
  exact ⟨own.options, hoptions ▸ hown, hall⟩

namespace Ensemble

/-- A native call of a member, where `own` is the build that its build record stands for and
`ran` the compilation whose program is called. -/
structure Launches (record : List Exchange) (k : Kernel) (request : RunRequest)
    (c : Native.Call) (own : LastBuild) (ran : Compilation) : Prop where
  /-- The build that the kernel relies on is of this kernel, with the options that
  it has now and those given for that build alone. -/
  fits : own.Fits k own.extra
  known : own.toCompilation ∈ compilationsOf record
  index : own.request.device.index = request.device.index
  name : c.kernel = k.name
  program : ran.program? = some c.program
  built : .native (.build c.program ran.request.options) ∈ ran.events
  /-- The program is that of the last compilation that has found a kernel of the
  name for the index of the device. -/
  latest : latest? record request.device.index k.name = some ran
  /-- It is that of the kernel itself if and only if no later compilation has
  found such a kernel. -/
  exact : ran = own.toCompilation ↔ ∀ later ∈ compilationsOf record,
    own.toCompilation.Before later → later.holds request.device.index k.name = false

theorem Sound.launches {s : Ensemble} (h : Sound s) {slot : String} {m : Member}
    (hm : s.members slot = some m) {args : List Value} {inPlace : Bool} {e : Exchange}
    (he : e ∈ s.exchanges (.on slot (.call args inPlace))) {c : Native.Call}
    (hc : .native (.call c) ∈ e.events) :
    ∃ after request own ran,
      (s.step (.on slot (.call args inPlace))).members slot = some after ∧
      after.lastBuild = some own ∧ e.runRequest? = some request ∧
      Launches (s.step (.on slot (.call args inPlace))).record m.kernel request c own ran := by
  have hsound := h.step (.on slot (.call args inPlace))
  have hstep : s.step (.on slot (.call args inPlace)) =
      s.settle slot ((s.life m).step openCL (.call args inPlace)) := by
    simp only [Ensemble.step, hm]
  unfold exchanges at he
  rw [hstep] at he hsound ⊢
  have hgrown := (s.life m).step_record openCL (.call args inPlace)
  have hcalling := Life.step_call openCL (s.life m) args inPlace
  have hconsistent := (h.consistent slot m hm).step openCL (.call args inPlace)
  generalize (s.life m).exchanges openCL (.call args inPlace) = exchanges at hgrown hcalling
  generalize (s.life m).step openCL (.call args inPlace) = l at *
  have hrecord : (s.settle slot l).record = s.record ++ exchanges := hgrown
  rw [hrecord, List.drop_left] at he
  obtain ⟨request, hrequest⟩ := hsound.ledger.called_run
    (hrecord ▸ List.mem_append_right _ he : e ∈ (s.settle slot l).record) hc
  -- The launch comes last, so the ledger of the whole record tells what it runs.
  obtain ⟨_, _, before, hbefore⟩ := hcalling.launched he hrequest
  have hend : (s.settle slot l).record = (s.record ++ before) ++ [e] := by
    rw [hrecord, hbefore, List.append_assoc]
  have hledger : Ledger l.world.state.state ((s.record ++ before) ++ [e]) := hend ▸ hsound.ledger
  obtain ⟨hname, ran, hran, hprogram⟩ := hledger.called_last hrequest hc
  -- The kernel counts as built, so it remembers a build of its own.
  obtain ⟨hrequestName, own, hlast, hfits, hindex⟩ := hconsistent.launched_fits hcalling he hrequest
  rw [← hend, hrequestName] at hran
  have hmember : (s.settle slot l).members slot = some ⟨l.kernel, l.lastBuild⟩ := if_pos rfl
  have hknown := hsound.passed slot _ own hmember hlast
  have hholds : own.holds request.device.index m.kernel.name = true :=
    Compilation.holds_iff.mpr ⟨hindex, hfits.present⟩
  refine ⟨_, request, own, ran, hmember, hlast, hrequest, ?_⟩
  exact
    { fits := hfits
      known := hknown
      index := hindex
      name := hname.trans hrequestName
      program := hprogram
      built := hsound.ledger.built ran (hsound.ledger.latest?_spec hran).1 _ hprogram
      latest := hran
      exact := hsound.ledger.latest?_eq_iff hran hknown hholds }

/-- After any operations on any kernels that share an OpenCL backend, a call runs the program
of the last compilation that reported its kernel name for its device index. This is the
program of the kernel's own build if and only if no later compilation reported the name. -/
theorem run_launches (machine : Machine) (directory : Directory) (platforms : Platforms)
    (ops : List Op) {slot : String} {m : Member}
    (hm : ((initial machine directory platforms).run ops).members slot = some m)
    {args : List Value} {inPlace : Bool} {e : Exchange}
    (he : e ∈ ((initial machine directory platforms).run ops).exchanges
      (.on slot (.call args inPlace)))
    {c : Native.Call} (hc : .native (.call c) ∈ e.events) :
    ∃ after request own ran,
      (((initial machine directory platforms).run ops).step
        (.on slot (.call args inPlace))).members slot = some after ∧
      after.lastBuild = some own ∧ e.runRequest? = some request ∧
      Launches (((initial machine directory platforms).run ops).step
        (.on slot (.call args inPlace))).record m.kernel request c own ran :=
  ((Sound.initial machine directory platforms).run ops).launches hm he hc

/-- No kernel yet, and one device. -/
def sample : Ensemble := initial {} (.initial {}) (.ok [⟨"P", [Life.sampleNative "first"]⟩])

/-- The native calls during some exchanges. -/
def callsOf (exchanges : List Exchange) : List Native.Call :=
  (exchanges.flatMap Exchange.events).filterMap fun
    | .native (.call c) => some c
    | _ => none

theorem mem_callsOf {exchanges : List Exchange} {c : Native.Call} (h : c ∈ callsOf exchanges) :
    ∃ e ∈ exchanges, .native (.call c) ∈ e.events := by
  obtain ⟨n, hn, hcall⟩ := List.mem_filterMap.mp h
  obtain ⟨e, he, hevent⟩ := List.mem_flatMap.mp hn
  refine ⟨e, he, ?_⟩
  split at hcall
  · cases hcall
    exact hevent
  · cases hcall

/-- A copy with another macro is called before its original, and a kernel of another name
after it. -/
def sharing : List Op :=
  [.construct "a" "kernel void f()" none none, .construct "c" "kernel void g()" none none,
    .withChanges "a" "b" [("macros", .value (.text "N=2"))],
    .on "b" (.call [] false), .on "a" (.call [] false), .on "c" (.call [] false)]

/-- Of the three programs the original runs the second one, which is its own. -/
theorem sample_launches :
    (compilationsOf (sample.run sharing).record).map
        (fun c => (c.names, c.program?, c.request.options)) =
      [(["f"], some 0, "-DN=2 -cl-mad-enable -cl-fp32-correctly-rounded-divide-sqrt"),
        (["f"], some 1, "-cl-mad-enable -cl-fp32-correctly-rounded-divide-sqrt"),
        (["g"], some 2, "-cl-mad-enable -cl-fp32-correctly-rounded-divide-sqrt")] ∧
    ∃ m c request own ran,
      (sample.run sharing).members "a" = some m ∧
      c.program = 1 ∧
      Launches ((sample.run sharing).step (.on "a" (.call [] false))).record m.kernel request c
        own ran := by
  refine ⟨by decide +kernel, ?_⟩
  obtain ⟨m, hm⟩ : ∃ m, (sample.run sharing).members "a" = some m :=
    Option.isSome_iff_exists.mp (by decide +kernel)
  have hcalls : (callsOf ((sample.run sharing).exchanges (.on "a" (.call [] false)))).map
      (·.program) = [1] := by decide +kernel
  obtain ⟨c, hc, hprogram⟩ := List.mem_map.mp (hcalls ▸ List.mem_singleton_self 1)
  obtain ⟨e, he, hevent⟩ := mem_callsOf hc
  obtain ⟨_, request, own, ran, _, _, _, hlaunches⟩ := run_launches _ _ _ _ hm he hevent
  exact ⟨m, c, request, own, ran, hm, hprogram, hlaunches⟩

/-- A kernel and a copy of it with another macro are called, one after the
other. -/
def override : List Op :=
  [.construct "a" "kernel void f()" none none,
    .withChanges "a" "b" [("macros", .value (.text "N=2"))],
    .on "a" (.call [] false), .on "b" (.call [] false)]

/-- The first kernel counts as built and is not recompiled, but its next call runs the program
of the copy, with the macro of the copy. -/
theorem override_runs_other :
    ((sample.run override).members "a").map (·.kernel.isBuilt.toOption) = some (some true) ∧
    ((sample.run override).members "a").map (·.kernel.optionString.toOption) =
      some (some "-cl-mad-enable -cl-fp32-correctly-rounded-divide-sqrt") ∧
    (compilationsOf (sample.run override).record).map
        (fun c => (c.program?, c.request.options)) =
      [(some 0, "-cl-mad-enable -cl-fp32-correctly-rounded-divide-sqrt"),
        (some 1, "-DN=2 -cl-mad-enable -cl-fp32-correctly-rounded-divide-sqrt")] ∧
    (callsOf ((sample.run override).exchanges (.on "a" (.call [] false)))).map (·.program) =
      [1] := by
  refine ⟨by decide +kernel, by decide +kernel, by decide +kernel, by decide +kernel⟩

end Ensemble

end KernelLaunch
