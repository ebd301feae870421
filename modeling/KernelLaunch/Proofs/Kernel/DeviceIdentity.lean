import KernelLaunch.Proofs.Kernel.Rebuilding

/-!
Build cache soundness across re-enumeration. The build record holds a device index, and an
index can come to stand for another native device when the platforms change and the
directory is refreshed. A kernel is misled if its last build was for another native device
under the same index and options; the main statement is that launches and rebuilds follow
the native device in all other cases.
-/

namespace KernelLaunch.Life

open Host Text Backend Kernel

variable {σ : Type}

/-- The kernel is misled: its last build was for another native device with the index and the
option string that it has now, so its build record looks current. -/
def Misled (l : Life σ) : Prop :=
  ∃ last device, l.lastBuild = some last ∧ l.kernel.device = some device ∧
    l.kernel.optionString = .ok last.options ∧ last.request.device.index = device.index ∧
    last.request.device.native ≠ device.native

/-- A kernel has devices of a numbering at most, whatever is done. -/
def Numbered (b : Backend σ) (numbering : Int → Device.Native) (l : Life σ) (ops : List Op) :
    Prop :=
  ∀ n device, (l.run b (ops.take n)).kernel.device = some device →
    device.native = numbering device.index

/-- A launch is on the native device of the last build unless the kernel is
misled. -/
structure FollowsDevice (b : Backend σ) (l : Life σ) : Prop where
  /-- A call launches after a build, and on the native device of that build,
  unless the kernel is misled. -/
  launches : ∀ args inPlace request, request ∈ l.launches b (.call args inPlace) →
    ∃ last, (l.step b (.call args inPlace)).lastBuild = some last ∧
      (last.request.device.native = request.device.native ↔ ¬ l.Misled)
  /-- A call on another native device than that of the last build compiles,
  unless the kernel is misled. -/
  changes : ∀ last device options args inPlace, l.lastBuild = some last →
    l.kernel.device = some device → l.kernel.optionString = .ok options →
    args.length = l.kernel.parameters.length → last.request.device.native ≠ device.native →
    (l.compilations b (.call args inPlace) ≠ [] ↔ ¬ l.Misled)

/-- A kernel that is misled counts as built. -/
theorem Misled.built {l : Life σ} (h : l.Misled) (hl : l.Consistent) :
    ∃ device, l.kernel.builtFor? = .ok (some device) := by
  obtain ⟨last, device, hlast, hdevice, hoptions, hindex, _⟩ := h
  refine ⟨device, builtFor?_eq_some_iff.mpr ⟨hdevice, last.options, hoptions, ?_⟩⟩
  rw [hl.record, hlast, ← hindex]
  rfl

theorem misled_iff {l : Life σ} {last : LastBuild} {device : Device}
    (hlast : l.lastBuild = some last) (hdevice : l.kernel.device = some device)
    (hoptions : l.kernel.optionString = .ok last.options)
    (hindex : last.request.device.index = device.index) :
    l.Misled ↔ last.request.device.native ≠ device.native := by
  constructor
  · rintro ⟨last', device', hlast', hdevice', _, _, hother⟩
    cases hlast.symm.trans hlast'
    cases hdevice.symm.trans hdevice'
    exact hother
  · intro hother
    exact ⟨last, device, hlast, hdevice, hoptions, hindex, hother⟩

theorem launches_follow (b : Backend σ) {l : Life σ} (hl : l.Consistent) {args : List Value}
    {inPlace : Bool} {request : RunRequest}
    (hmem : request ∈ l.launches b (.call args inPlace)) :
    ∃ last, (l.step b (.call args inPlace)).lastBuild = some last ∧
      (last.request.device.native = request.device.native ↔ ¬ l.Misled) := by
  have hcalling := step_call b l args inPlace
  have hkept : (l.exchanges b (.call args inPlace)).findSome? (·.compiled? l.kernel.name) = none →
      (l.step b (.call args inPlace)).lastBuild = l.lastBuild := lastBuild_kept
  have hbuilt {compilation : Compilation} {options : String}
      (hoptions : l.kernel.optionString = .ok options) :
      (l.exchanges b (.call args inPlace)).findSome? (·.compiled? l.kernel.name) =
        some compilation →
      (l.step b (.call args inPlace)).lastBuild = some ⟨compilation, options, .absent⟩ :=
    lastBuild_built hoptions
  obtain ⟨e, he, hrequest⟩ := List.mem_filterMap.mp hmem
  generalize l.exchanges b (.call args inPlace) = exchanges at hcalling he hkept hbuilt
  generalize (l.step b (.call args inPlace)).kernel = k' at hcalling
  cases hcalling with
  | miscounted => cases he
  | unclear => cases he
  | current current launching =>
      obtain ⟨hfor, _⟩ := launching.launched he hrequest
      obtain ⟨hdevice, last, hlast, hoptions, hindex⟩ := hl.lastBuild_of_built hfor
      refine ⟨last, (hkept (launching_findSome? launching _)).trans hlast, ?_⟩
      rw [misled_iff hlast hdevice hoptions hindex, Decidable.not_not]
  | @stale _ compilation launch stale building launching =>
      have hlaunch : e ∈ launch := by
        rcases List.mem_append.mp he with he | he
        · cases (building.no_run he).symm.trans hrequest
        · exact he
      obtain ⟨hfor, _⟩ := launching.launched hlaunch hrequest
      -- Nothing is launched unless this build has succeeded.
      cases building with
      | refused => cases stale.symm.trans hfor
      | failed => cases stale.symm.trans hfor
      | @built device options all names events plan present =>
          cases (recorded_builtFor? plan).symm.trans hfor
          refine ⟨⟨⟨⟨request.device, l.kernel.source, all⟩, names, events⟩, options, .absent⟩,
            hbuilt plan.hasOptions ?_, ?_⟩
          · simp [Exchange.compiled?, Exchange.compilation?, present]
          · have hnot : ¬ l.Misled := by
              intro hmisled
              obtain ⟨own, hown⟩ := hmisled.built hl
              cases stale.symm.trans hown
            simp [hnot]

theorem changes_follow (b : Backend σ) {l : Life σ} (hl : l.Consistent) {last : LastBuild}
    {device : Device} {options : String} {args : List Value} (inPlace : Bool)
    (hlast : l.lastBuild = some last) (hdevice : l.kernel.device = some device)
    (hoptions : l.kernel.optionString = .ok options)
    (hcount : args.length = l.kernel.parameters.length)
    (hother : last.request.device.native ≠ device.native) :
    l.compilations b (.call args inPlace) ≠ [] ↔ ¬ l.Misled := by
  rw [call_compilations b l inPlace hdevice hoptions hcount, hl.record, hlast]
  by_cases hsame : last.record = ⟨device.index, options⟩
  · have hindex : last.request.device.index = device.index := congrArg BuildRecord.index hsame
    have hlastOptions : last.options = options := congrArg BuildRecord.options hsame
    have hmisled := (misled_iff hlast hdevice (hlastOptions ▸ hoptions) hindex).mpr hother
    simp [hsame, hmisled]
  · have hnot : ¬ l.Misled := by
      rintro ⟨last', device', hlast', hdevice', hoptions', hindex', _⟩
      cases hlast.symm.trans hlast'
      cases hdevice.symm.trans hdevice'
      apply hsame
      rw [LastBuild.record, hindex', Except.ok.inj (hoptions.symm.trans hoptions')]
    simp [hsame, hnot]

theorem Consistent.followsDevice {l : Life σ} (h : l.Consistent) (b : Backend σ) :
    l.FollowsDevice b where
  launches _ _ _ hmem := launches_follow b h hmem
  changes _ _ _ _ inPlace hlast hdevice hoptions hcount hother :=
    changes_follow b h inPlace hlast hdevice hoptions hcount hother

/-- Builds are for devices that the kernel has had. -/
theorem numbered_lastBuild {b : Backend σ} {numbering : Int → Device.Native} (ops : List Op)
    {l : Life σ} (h : Numbered b numbering l ops)
    (hlast : ∀ last, l.lastBuild = some last →
      last.request.device.native = numbering last.request.device.index) :
    ∀ last, (l.run b ops).lastBuild = some last →
      last.request.device.native = numbering last.request.device.index := by
  induction ops generalizing l with
  | nil => exact hlast
  | cons op rest ih =>
      refine ih (l := l.step b op) (fun n device hdevice => h (n + 1) device hdevice) ?_
      intro last hmem
      cases step_effect b l op with
      | kept same failure => exact hlast last ((lastBuild_kept failure).symm.trans hmem)
      | built plan _ _ _ success =>
          cases (lastBuild_built plan.hasOptions success).symm.trans hmem
          exact h 0 _ plan.hasDevice

/-- Where an index always stands for the same native device, no kernel is
misled. -/
theorem Fresh.not_misled {b : Backend σ} {numbering : Int → Device.Native} {l : Life σ}
    (h : l.Fresh) {ops : List Op} (hnumbered : Numbered b numbering l ops) :
    ¬ (l.run b ops).Misled := by
  rintro ⟨last, device, hlast, hdevice, _, hindex, hother⟩
  have hnative := numbered_lastBuild ops hnumbered (by simp [h.noBuild]) last hlast
  have hown := hnumbered ops.length device (by rwa [List.take_length])
  exact hother (hnative.trans ((congrArg numbering hindex).trans hown.symm))

/-- After any operations, launches are on the native device of the last build and a changed
native device is compiled for, except when the kernel is misled. No kernel is misled while
each index keeps its native device. -/
theorem run_followsDevice (b : Backend σ) {l : Life σ} (h : l.Fresh) (ops : List Op) :
    (l.run b ops).FollowsDevice b ∧
      ∀ numbering, Numbered b numbering l ops → ¬ (l.run b ops).Misled :=
  ⟨(h.consistent.run b ops).followsDevice b, fun _ hnumbered => h.not_misled hnumbered⟩

/-- The only device is replaced, the directory refreshed, and the new device with the old
index assigned to the kernel. -/
def replacement : List Op :=
  [.call [] false, .platforms (.ok [⟨"P", [sampleNative "second"]⟩]), .refresh,
    .set .device (.value (.int 0))]

/-- The kernel is launched on a native device that it was never built for, without a
compilation: the only build was for the device that had index zero before. -/
theorem replacement_misleads :
    (sample.run loopback replacement).kernel.device =
      some ⟨0, "P", sampleNative "second"⟩ ∧
    ((sample.run loopback replacement).launches loopback (.call [] false)).map (·.device) =
      [⟨0, "P", sampleNative "second"⟩] ∧
    ((sample.run loopback replacement).step loopback (.call [] false)).lastBuild.map
      (·.request.device) = some ⟨0, "P", sampleNative "first"⟩ ∧
    (sample.run loopback replacement).compilations loopback (.call [] false) = [] ∧
    sampleNative "first" ≠ sampleNative "second" := by
  refine ⟨by decide +kernel, by decide +kernel, by decide +kernel, by rfl, by decide +kernel⟩

/-- A second device appears at a refresh, with index one, and is assigned to the kernel. -/
def addition : List Op :=
  [.call [] false, .platforms (.ok [⟨"P", [sampleNative "first", sampleNative "second"]⟩]),
    .refresh, .set .device (.value (.int 1))]

theorem addition_numbered :
    Numbered loopback (fun index => sampleNative (if index = 0 then "first" else "second"))
      sample addition := by
  have hbefore : ∀ n < 4, (sample.run loopback (addition.take n)).kernel.device =
      some ⟨0, "P", sampleNative "first"⟩ := by decide +kernel
  have hafter : (sample.run loopback addition).kernel.device =
      some ⟨1, "P", sampleNative "second"⟩ := by decide +kernel
  intro n device hdevice
  by_cases hn : n < 4
  · cases (hbefore n hn).symm.trans hdevice
    rfl
  · rw [List.take_of_length_le (Nat.le_of_not_lt hn : addition.length ≤ n)] at hdevice
    cases hafter.symm.trans hdevice
    rfl

/-- The next call compiles for the second device and launches the kernel on it. -/
theorem sample_followsDevice :
    sample.Fresh ∧
    Numbered loopback (fun index => sampleNative (if index = 0 then "first" else "second"))
      sample addition ∧
    (sample.run loopback addition).compilations loopback (.call [] false) ≠ [] ∧
    ∃ request ∈ (sample.run loopback addition).launches loopback (.call [] false),
      request.device.native = sampleNative "second" ∧
      ∃ last, ((sample.run loopback addition).step loopback (.call [] false)).lastBuild =
          some last ∧
        last.request.device.native = request.device.native := by
  have hfresh : sample.Fresh := ⟨rfl, rfl⟩
  obtain ⟨hfollows, hnumbered⟩ := run_followsDevice loopback hfresh addition
  have hclear := hnumbered _ addition_numbered
  let request : RunRequest :=
    ⟨⟨1, "P", sampleNative "second"⟩, "f", [0, 0, 0, 1, 1, 1], [1, 1, 1], [], []⟩
  have hrequest : request ∈ (sample.run loopback addition).launches loopback (.call [] false) :=
    List.mem_singleton.mpr (by rfl)
  obtain ⟨last, hlast, hiff⟩ := hfollows.launches [] false request hrequest
  refine ⟨hfresh, addition_numbered, ?_, request, hrequest, rfl, last, hlast, hiff.mpr hclear⟩
  -- The only build until now was for the first device.
  exact (hfollows.changes _ ⟨1, "P", sampleNative "second"⟩ "" [] false (by rfl) (by rfl)
    (by rfl) (by rfl) (by decide +kernel)).mpr hclear

end KernelLaunch.Life
