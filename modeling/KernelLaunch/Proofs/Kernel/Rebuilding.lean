import KernelLaunch.Backend.Loopback
import KernelLaunch.Kernel.Load
import KernelLaunch.Proofs.Kernel.Life

/-!
When a call rebuilds. After any operations, a call compiles if and only if there was no
successful build yet, or the last one was for another device index or another option string.
Failed builds are not remembered.
-/

namespace KernelLaunch

open Host Text Backend Kernel

variable {σ : Type}

namespace Kernel

theorem Planned.device_eq {k : Kernel} {extra : Value} {device device' : Device}
    {options all : String} (h : Planned k extra device options all)
    (hdevice : k.device = some device') : device = device' :=
  Option.some.inj (h.hasDevice.symm.trans hdevice)

theorem Planned.options_eq {k : Kernel} {extra : Value} {device : Device}
    {options options' all : String} (h : Planned k extra device options all)
    (hoptions : k.optionString = .ok options') : options = options' :=
  Except.ok.inj (h.hasOptions.symm.trans hoptions)

/-- A build during which nothing compiles with the kernel leaves the kernel as
it was. -/
theorem Building.unchanged {k k' : Kernel} {extra : Value} {exchanges : List Exchange}
    (h : Building k extra k' exchanges) (hfailed : ∀ e ∈ exchanges, e.compiled? k.name = none) :
    k' = k := by
  cases h with
  | refused => rfl
  | failed => rfl
  | built plan present =>
      have hnone := hfailed _ (List.mem_singleton.mpr rfl)
      simp [Exchange.compiled?, Exchange.compilation?, present] at hnone

theorem Calling.unchanged {k k' : Kernel} {args : List Value} {exchanges : List Exchange}
    (h : Calling k args k' exchanges) (hfailed : ∀ e ∈ exchanges, e.compiled? k.name = none) :
    k' = k := by
  cases h with
  | miscounted => rfl
  | unclear => rfl
  | current => rfl
  | stale _ building =>
      exact building.unchanged fun e he => hfailed e (List.mem_append_left _ he)

/-- What a build without further options compiles is determined by the settings,
whatever comes of it. -/
theorem Building.compileRequests {k k' : Kernel} {device : Device} {options : String}
    {exchanges : List Exchange} (h : Building k .absent k' exchanges)
    (hdevice : k.device = some device) (hoptions : k.optionString = .ok options) :
    exchanges.filterMap Exchange.compileRequest? =
      [⟨device, k.source, String.ofList (trim options.toList)⟩] := by
  have hplan {own : Device} {ownOptions all : String}
      (plan : Planned k .absent own ownOptions all) :
      own = device ∧ all = String.ofList (trim options.toList) := by
    obtain rfl := plan.options_eq hoptions
    exact ⟨plan.device_eq hdevice, Except.ok.inj
      (plan.allOptions.symm.trans (buildOptions_absent ownOptions))⟩
  cases h with
  | refused unplanned =>
      exact absurd ⟨hdevice, hoptions, buildOptions_absent options⟩ (unplanned _ _ _)
  | failed plan failure =>
      obtain ⟨rfl, rfl⟩ := hplan plan
      rfl
  | built plan present =>
      obtain ⟨rfl, rfl⟩ := hplan plan
      rfl

theorem Launching.compileRequests {k : Kernel} {launch : List Exchange} (h : Launching k launch) :
    launch.filterMap Exchange.compileRequest? = [] := by
  obtain rfl | ⟨device, passed, flags, events, _, rfl⟩ := h <;> rfl

end Kernel

namespace Life

/-- Operations during which nothing compiles with the kernel. -/
def Fruitless (b : Backend σ) : Life σ → List Op → Prop
  | _, [] => True
  | l, op :: rest =>
      (∀ e ∈ l.exchanges b op, e.compiled? l.kernel.name = none) ∧ Fruitless b (l.step b op) rest

/-- Builds and calls make exactly the compile requests that the last successful build
requires. -/
structure RebuildsExactly (b : Backend σ) (l : Life σ) : Prop where
  /-- The build record is that of the last successful build. -/
  record : l.kernel.built = l.lastBuild.map LastBuild.record
  /-- A call makes one compile request if the record is of another device index or option
  string, and none otherwise. -/
  calls : ∀ device options args inPlace, l.kernel.device = some device →
    l.kernel.optionString = .ok options → args.length = l.kernel.parameters.length →
    l.compilations b (.call args inPlace) =
      if l.lastBuild.map LastBuild.record = some ⟨device.index, options⟩ then []
      else [⟨device, l.kernel.source, String.ofList (trim options.toList)⟩]
  /-- A build or a call without a successful compilation leaves the kernel as it was. -/
  failures : ∀ op, op.isSetting = false →
    (∀ e ∈ l.exchanges b op, e.compiled? l.kernel.name = none) →
    (l.step b op).kernel = l.kernel
  /-- The build record lasts through any operations without a successful compilation. -/
  keeps : ∀ ops, Fruitless b l ops →
    (l.run b ops).kernel.built = l.kernel.built ∧ (l.run b ops).lastBuild = l.lastBuild

theorem findSome?_compiled_none {name : String} {exchanges : List Exchange}
    (h : ∀ e ∈ exchanges, e.compiled? name = none) :
    exchanges.findSome? (·.compiled? name) = none :=
  List.findSome?_eq_none_iff.mpr h

/-- The compile requests of a call, by the build record of the kernel. -/
theorem call_compilations (b : Backend σ) (l : Life σ) {device : Device} {options : String}
    {args : List Value} (inPlace : Bool) (hdevice : l.kernel.device = some device)
    (hoptions : l.kernel.optionString = .ok options)
    (hcount : args.length = l.kernel.parameters.length) :
    l.compilations b (.call args inPlace) =
      if l.kernel.built = some ⟨device.index, options⟩ then []
      else [⟨device, l.kernel.source, String.ofList (trim options.toList)⟩] := by
  have hbuilt := builtFor?_eq hdevice hoptions
  have hcalling := step_call b l args inPlace
  unfold compilations
  generalize l.exchanges b (.call args inPlace) = exchanges at hcalling ⊢
  generalize (l.step b (.call args inPlace)).kernel = k' at hcalling
  cases hcalling with
  | miscounted count => exact absurd hcount count
  | unclear unclear => cases hbuilt.symm.trans unclear
  | current current launching =>
      rw [hbuilt] at current
      split at current
      · next hrecord => rw [launching.compileRequests, if_pos hrecord]
      · cases current
  | @stale _ compilation launch stale building launching =>
      rw [hbuilt] at stale
      split at stale
      · cases stale
      · next hrecord =>
        rw [List.filterMap_append, launching.compileRequests, if_neg hrecord, List.append_nil]
        exact building.compileRequests hdevice hoptions

theorem step_unchanged (b : Backend σ) (l : Life σ) {op : Op} (hop : op.isSetting = false)
    (hfailed : ∀ e ∈ l.exchanges b op, e.compiled? l.kernel.name = none) :
    (l.step b op).kernel = l.kernel := by
  cases op with
  | build extra => exact (step_build b l extra).unchanged hfailed
  | call args inPlace => exact (step_call b l args inPlace).unchanged hfailed
  | _ => cases hop

theorem step_keeps (b : Backend σ) (l : Life σ) {op : Op}
    (hfailed : ∀ e ∈ l.exchanges b op, e.compiled? l.kernel.name = none) :
    (l.step b op).kernel.built = l.kernel.built ∧ (l.step b op).lastBuild = l.lastBuild := by
  have hnone := findSome?_compiled_none hfailed
  refine ⟨?_, lastBuild_kept hnone⟩
  cases step_effect b l op with
  | kept same failure => exact same.built
  | built _ _ _ _ success => cases hnone.symm.trans success

theorem run_keeps (b : Backend σ) (l : Life σ) (ops : List Op) (h : Fruitless b l ops) :
    (l.run b ops).kernel.built = l.kernel.built ∧ (l.run b ops).lastBuild = l.lastBuild := by
  induction ops generalizing l with
  | nil => exact ⟨rfl, rfl⟩
  | cons op rest ih =>
      obtain ⟨hfailed, hrest⟩ := h
      obtain ⟨hbuilt, hlast⟩ := step_keeps b l hfailed
      obtain ⟨hbuilt', hlast'⟩ := ih (l.step b op) hrest
      exact ⟨hbuilt'.trans hbuilt, hlast'.trans hlast⟩

theorem Consistent.rebuildsExactly {l : Life σ} (h : l.Consistent) (b : Backend σ) :
    l.RebuildsExactly b where
  record := h.record
  calls _ _ _ inPlace hdevice hoptions hcount := by
    rw [← h.record]
    exact call_compilations b l inPlace hdevice hoptions hcount
  failures _ hop hfailed := step_unchanged b l hop hfailed
  keeps := run_keeps b l

/-- A kernel starts without a build. -/
theorem fresh_of_source {loaded : LoadedSource} {name : Option String}
    {make : Option Device → Kernel} (h : Kernel.ofSource loaded name = .ok make)
    (device : Option Device) (directory : Device.Directory) (platforms : Device.Platforms)
    (w : World (Recorded σ)) : Fresh ⟨make device, directory, platforms, w, none⟩ := by
  refine ⟨?_, rfl⟩
  unfold Kernel.ofSource at h
  cases hinterface : Source.interface name loaded.text with
  | error e => simp [hinterface, bind, Except.bind] at h
  | ok interface =>
      simp only [hinterface, bind, Except.bind, pure, Except.pure, Except.ok.injEq] at h
      subst h
      rfl

/-- After any operations on a kernel that started unbuilt, over any backend, a call compiles
exactly when the last successful build was for another device index or option string, or there
was none. -/
theorem run_rebuildsExactly (b : Backend σ) {l : Life σ} (h : l.Fresh) (ops : List Op) :
    (l.run b ops).RebuildsExactly b :=
  (h.consistent.run b ops).rebuildsExactly b

/-- Elements in a row, as a tensor of one dimension. -/
def sampleRow (s : Storage) (cells : List s.Elem) : Tensor :=
  ⟨s, [cells.length], cells, (Nat.mul_one _).symm⟩

/-- A device with a name and nothing else of note. -/
def sampleNative (name : String) : Device.Native where
  name := name
  vendor := ""
  kindBits := 4
  maxGroupSize := 256
  maxItemSizes := [256, 256, 64]
  localMemory := 0
  globalMemory := 0
  computeUnits := 8
  clockFrequency := 1000
  available := true
  version := ""
  driverVersion := ""
  languageVersion := ""
  extensionList := ""

/-- A kernel without parameters, on a machine with its source and one device. -/
def sample : Life Machine where
  kernel :=
    { interface := ⟨"f", ""⟩
      parameters := []
      source := .temporary 0
      device := some ⟨0, "P", sampleNative "first"⟩
      includes := []
      compilerOptions := [] }
  directory := .initial {}
  platforms := .ok [⟨"P", [sampleNative "first"]⟩]
  world := ⟨{ state := { files := { temporary := ["kernel void f()"] } } }, []⟩
  lastBuild := none

/-- A kernel that is built, given other options and given its old ones again
does not compile when it is called; before the build it does. -/
theorem sample_rebuildsExactly :
    sample.Fresh ∧
    sample.compilations loopback (.call [] false) =
      [⟨⟨0, "P", sampleNative "first"⟩, .temporary 0, ""⟩] ∧
    (sample.run loopback [.build (.text "-w"), .edit .macros [.text "N"],
      .edit .macros []]).compilations loopback (.call [] false) = [] := by
  have hfresh : sample.Fresh := ⟨rfl, rfl⟩
  refine ⟨hfresh, ?_, ?_⟩
  · exact (run_rebuildsExactly loopback hfresh []).calls _ "" [] false rfl rfl rfl
  · rw [(run_rebuildsExactly loopback hfresh _).calls ⟨0, "P", sampleNative "first"⟩ "" [] false
      (by rfl) (by rfl) (by rfl)]
    exact if_pos (by rfl)

end Life

end KernelLaunch
