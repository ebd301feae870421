import Mathlib.Algebra.BigOperators.Group.List.Basic
import Mathlib.Algebra.Ring.Int.Defs
import KernelLaunch.Proofs.Kernel.Rebuilding
import KernelLaunch.Proofs.Kernel.Stages

/-!
Launches against device limits. Sizes and devices are assigned without any check. The main
statement is that every launch is for the kernel's current device, within its maximum work
group size and work item sizes, and that a call beyond them is refused.
-/

namespace KernelLaunch

open Host Backend Kernel

variable {σ : Type}

/-- A block that a device can run: no larger than it may be in each of the three
dimensions, and with no more threads than it may have. -/
structure Device.Admits (d : Device) (block : List Int) : Prop where
  sizes : List.Forall₂ (· ≤ ·) block d.maxItemSizes.toList
  threads : block.prod ≤ d.maxGroupSize

namespace Kernel

theorem prod_toList (t : Geometry.Triple Int) : t.toList.prod = t.product := by
  simp only [Geometry.Triple.toList, Geometry.Triple.product, List.prod_cons, List.prod_nil,
    mul_one, mul_assoc]

theorem checkBlock_of_admits {block : Geometry.Triple Int} {device : Device}
    (h : device.Admits block.toList) : checkBlock block device = .ok () := by
  obtain ⟨hsizes, hthreads⟩ := h
  rw [prod_toList] at hthreads
  have hany : (block.zipWith (fun size limit => decide (limit < size)) device.maxItemSizes).any id =
      false := by
    simp only [Geometry.Triple.toList, List.forall₂_cons] at hsizes
    obtain ⟨hx, hy, hz, _⟩ := hsizes
    simp only [Geometry.Triple.any, Geometry.Triple.zipWith, id, Bool.or_eq_false_iff,
      decide_eq_false_iff_not]
    omega
  rw [checkBlock]
  simp [hany, Int.not_lt.mpr hthreads]

theorem checkBlock_of_not_admits {block : Geometry.Triple Int} {device : Device}
    (h : ¬ device.Admits block.toList) :
    ∃ text, checkBlock block device = .error (.kernel (.blockSize text)) := by
  rw [checkBlock]
  split
  · exact ⟨_, rfl⟩
  · next hsizes =>
    split
    · exact ⟨_, rfl⟩
    · next hthreads =>
      refine absurd ⟨?_, ?_⟩ h
      · simp only [Geometry.Triple.any, Geometry.Triple.zipWith, id, Bool.or_eq_true,
          decide_eq_true_eq] at hsizes
        simp only [Geometry.Triple.toList, List.forall₂_cons, List.forall₂_nil_left_iff, and_true]
        omega
      · rw [prod_toList]
        exact Int.not_lt.mp hthreads

/-- Arguments are prepared only for a block that the device admits. -/
theorem admits_of_prepare {k : Kernel} {device : Device} {args : List Value} {inPlace : Bool}
    {p : Prepared} (h : k.prepare device args inPlace = .ok p) :
    device.Admits k.geometry.block.toList := by
  by_contra hnot
  obtain ⟨text, hcheck⟩ := checkBlock_of_not_admits hnot
  obtain ⟨_, hfits, _⟩ := Steps.bind_ok_iff.mp h
  cases hcheck.symm.trans hfits

theorem prepare_of_not_admits {k : Kernel} {device : Device}
    (h : ¬ device.Admits k.geometry.block.toList) (args : List Value) (inPlace : Bool) :
    ∃ text, k.prepare device args inPlace = .error (.kernel (.blockSize text)) := by
  obtain ⟨text, hcheck⟩ := checkBlock_of_not_admits h
  refine ⟨text, ?_⟩
  rw [prepare, hcheck]
  rfl

end Kernel

namespace Life

/-- What is launched from here on is within the limits of the device. -/
structure KeepsLimits (b : Backend σ) (l : Life σ) : Prop where
  /-- A launch is for the device of the kernel, which admits the block, with the
  offset of the kernel and a global size that is the product of grid and block. -/
  launches : ∀ op request, request ∈ l.launches b op →
    l.kernel.device = some request.device ∧ request.device.Admits request.block ∧
    request.block = l.kernel.geometry.block.toList ∧
    request.launch = l.kernel.geometry.offset.toList ++
      List.zipWith (· * ·) l.kernel.geometry.grid.toList request.block
  /-- A call with a block that the device does not admit is refused for that, once
  the number of arguments is right and the kernel is built. -/
  refused : ∀ args inPlace device ready, args.length = l.kernel.parameters.length →
    ((l.kernel.ready b.recording).perform l.world).1 = .ok ready →
    l.kernel.device = some device → ¬ device.Admits l.kernel.geometry.block.toList →
    (∃ text, (l.kernel.call b.recording args inPlace l.world).outcome =
      .error (.kernel (.blockSize text))) ∧
    l.launches b (.call args inPlace) = []

theorem launches_setting (b : Backend σ) (l : Life σ) {op : Op} (h : op.isSetting = true) :
    l.launches b op = [] := by
  rw [launches, exchanges_setting b l h]
  rfl

theorem launches_build (b : Backend σ) (l : Life σ) (extra : Value) :
    l.launches b (.build extra) = [] :=
  List.filterMap_eq_nil_iff.mpr fun _ he => (step_build b l extra).no_run he

theorem launch_within (b : Backend σ) (l : Life σ) (op : Op) {request : RunRequest}
    (h : request ∈ l.launches b op) :
    l.kernel.device = some request.device ∧ request.device.Admits request.block ∧
    request.block = l.kernel.geometry.block.toList ∧
    request.launch = l.kernel.geometry.offset.toList ++
      List.zipWith (· * ·) l.kernel.geometry.grid.toList request.block := by
  cases op with
  | build extra =>
      rw [launches_build] at h
      cases h
  | call args inPlace =>
      change request ∈ (l.kernel.call b.recording args inPlace l.world).launches l.world at h
      rcases reaches_or_fails b l.kernel args inPlace l.world with
        ⟨device, before, p, hreaches⟩ | ⟨_, hnone⟩
      · rw [hreaches.launched.1, List.mem_singleton] at h
        rw [h]
        exact ⟨hreaches.hasDevice, admits_of_prepare hreaches.prepared, rfl, rfl⟩
      · rw [hnone] at h
        cases h
  | _ =>
      rw [launches_setting b l rfl] at h
      cases h

theorem call_beyond (b : Backend σ) (l : Life σ) {args : List Value} (inPlace : Bool)
    {device : Device} {ready : Kernel × Device} (hcount : args.length = l.kernel.parameters.length)
    (hready : ((l.kernel.ready b.recording).perform l.world).1 = .ok ready)
    (hdevice : l.kernel.device = some device)
    (hbeyond : ¬ device.Admits l.kernel.geometry.block.toList) :
    (∃ text, (l.kernel.call b.recording args inPlace l.world).outcome =
      .error (.kernel (.blockSize text))) ∧ l.launches b (.call args inPlace) = [] := by
  obtain ⟨built, own⟩ := ready
  obtain ⟨_, _, _, hbuilt⟩ := ready_record b l.kernel l.world
  have hown : own = device :=
    Option.some.inj ((hbuilt built own hready).1.symm.trans hdevice)
  subst hown
  obtain ⟨text, hprepare⟩ := prepare_of_not_admits hbeyond args inPlace
  obtain ⟨houtcome, hlaunches⟩ := call_refused hcount (Prod.ext hready rfl) hprepare
  exact ⟨⟨text, houtcome⟩, hlaunches⟩

theorem keepsLimits (b : Backend σ) (l : Life σ) : l.KeepsLimits b where
  launches op _ h := launch_within b l op h
  refused _ inPlace _ _ hcount hready hdevice hbeyond :=
    call_beyond b l inPlace hcount hready hdevice hbeyond

/-- What an operation adds to the record is within the limits. -/
theorem step_recorded (b : Backend σ) (l : Life σ) (op : Op) {request : RunRequest}
    {events : List Note} (h : .run request events ∈ (l.step b op).world.state.record) :
    .run request events ∈ l.world.state.record ∨ request.device.Admits request.block := by
  rw [step_record] at h
  rcases List.mem_append.mp h with hold | hnew
  · exact .inl hold
  · have hmem : request ∈ l.launches b op := List.mem_filterMap.mpr ⟨_, hnew, rfl⟩
    exact .inr (launch_within b l op hmem).2.1

theorem run_recorded (b : Backend σ) (l : Life σ) (ops : List Op) {request : RunRequest}
    {events : List Note} (h : .run request events ∈ (l.run b ops).world.state.record) :
    .run request events ∈ l.world.state.record ∨ request.device.Admits request.block := by
  induction ops generalizing l with
  | nil => exact .inl h
  | cons op rest ih =>
      rcases ih (l.step b op) h with hstep | hadmits
      · exact step_recorded b l op hstep
      · exact .inr hadmits

/-- After any operations, over any backend, every launch is within the limits of the kernel's
current device, and every launch on record within those of its own device. -/
theorem run_keepsLimits (b : Backend σ) (l : Life σ) (ops : List Op) :
    (l.run b ops).KeepsLimits b ∧
      ∀ request events, .run request events ∈ (l.run b ops).world.state.record →
        .run request events ∈ l.world.state.record ∨ request.device.Admits request.block :=
  ⟨keepsLimits b (l.run b ops), fun _ _ h => run_recorded b l ops h⟩

/-- The sample is launched within the limits of its device, and with a block of
512 threads it is refused. -/
theorem sample_keepsLimits :
    (∃ request ∈ sample.launches loopback (.call [] false),
      request.device.Admits request.block) ∧
    (sample.run loopback [.set (.size .block) (.value (.int 512))]).launches loopback
      (.call [] false) = [] := by
  constructor
  · refine ⟨⟨⟨0, "P", sampleNative "first"⟩, "f", [0, 0, 0, 1, 1, 1], [1, 1, 1], [], []⟩,
      List.mem_singleton.mpr (by rfl), ?_⟩
    exact ((run_keepsLimits loopback sample []).1.launches (.call [] false) _
      (List.mem_singleton.mpr (by rfl))).2.1
  · have hlimits := (run_keepsLimits loopback sample [.set (.size .block) (.value (.int 512))]).1
    refine (hlimits.refused [] false ⟨0, "P", sampleNative "first"⟩ _ (by rfl) (by rfl)
      (by rfl) ?_).2
    rintro ⟨hsizes, _⟩
    revert hsizes
    decide +kernel

end Life

end KernelLaunch
