import KernelLaunch.Proofs.Geometry.Assignments
import KernelLaunch.Proofs.Kernel.Limits

/-!
Launch vectors under any sequence of settings. A launch has a non-negative global offset and
a global size that is a whole number of blocks. The main statement says exactly when it has
no threads in a dimension: after a zero block size was assigned there and until another
block size or a global size is.
-/

namespace KernelLaunch

open Host Backend Kernel Geometry

variable {σ : Type}

namespace Kernel

/-- The size that an assignment is about. -/
def sizeIn : Setting → Assigned → List (Field × Value)
  | .size f, .value v => [(f, v)]
  | _, _ => []

/-- The sizes that assignments by name are about. -/
def sizesIn (fields : List (String × Assigned)) : List (Field × Value) :=
  fields.flatMap fun (name, a) => (Setting.ofName? name).elim [] (sizeIn · a)

/-- An assignment changes the geometry by the size that it is about. -/
theorem set_geometry (platforms : Device.Platforms) (k : Kernel) (s : Setting) (a : Assigned) :
    Life.Answers (fun k' => k.geometry.setAll (sizeIn s a) = .ok k'.geometry)
      (k.set platforms s a) := by
  cases s with
  | size f =>
      cases a with
      | device d => exact .throw _
      | value v =>
          refine .bind (.lift fun geometry h => h) fun geometry h => .pure ?_
          exact (Dispatch.setAll_cons ..).trans (Steps.bind_ok_iff.mpr ⟨geometry, h, rfl⟩)
  | device => exact .bind (.any _) fun _ _ => .pure rfl
  | options l =>
      cases a with
      | device d => exact .throw _
      | value v => exact .bind (.any _) fun _ _ => .pure (by cases l <;> rfl)

theorem withChanges_geometry (platforms : Device.Platforms) (k : Kernel)
    (fields : List (String × Assigned)) :
    Life.Answers (fun k' => k.geometry.setAll (sizesIn (distinct fields)) = .ok k'.geometry)
      (k.withChanges platforms fields) := by
  unfold withChanges
  generalize distinct fields = fields
  induction fields generalizing k with
  | nil => exact .pure rfl
  | cons field rest ih =>
      obtain ⟨name, a⟩ := field
      rw [List.foldlM_cons]
      dsimp only
      cases hname : Setting.ofName? name with
      | none => exact .bind (P := fun _ => False) (.throw _) fun _ h => h.elim
      | some s =>
          refine .bind (set_geometry platforms k s a) fun next hnext d k' hk' => ?_
          have hsizes : sizesIn ((name, a) :: rest) = sizeIn s a ++ sizesIn rest := by
            rw [sizesIn, List.flatMap_cons]
            dsimp only
            rw [hname]
            rfl
          rw [hsizes]
          exact Dispatch.setAll_append hnext (ih next d k' hk')

theorem Building.geometry {k k' : Kernel} {extra : Value} {exchanges : List Exchange}
    (h : Building k extra k' exchanges) : k'.geometry = k.geometry := by
  cases h <;> rfl

theorem Calling.geometry {k k' : Kernel} {args : List Value} {exchanges : List Exchange}
    (h : Calling k args k' exchanges) : k'.geometry = k.geometry := by
  cases h with
  | stale _ building => exact building.geometry
  | _ => rfl

end Kernel

namespace Life

/-- The sizes that a query for a new version of a kernel assigns: none, if it
fails. -/
def granted (l : Life σ) (query : Device.Directory.Query Kernel) (sizes : List (Field × Value)) :
    List (Field × Value) :=
  if (query.run.run l.directory).1.toOption.isSome then sizes else []

/-- The sizes that an operation assigns to the kernel. -/
def sizesAssigned (l : Life σ) : Op → List (Field × Value)
  | .set s a => l.granted (l.kernel.set l.platforms s a) (sizeIn s a)
  | .copy fields =>
      l.granted (l.kernel.withChanges l.platforms fields) (sizesIn (distinct fields))
  | _ => []

/-- The sizes that operations assign, in order. -/
def sizesAssignedBy (b : Backend σ) : Life σ → List Op → List (Field × Value)
  | _, [] => []
  | l, op :: rest => l.sizesAssigned op ++ sizesAssignedBy b (l.step b op) rest

theorem ask_geometry (l : Life σ) {query : Device.Directory.Query Kernel}
    {sizes : List (Field × Value)}
    (h : Answers (fun k => l.kernel.geometry.setAll sizes = .ok k.geometry) query) :
    l.kernel.geometry.setAll (l.granted query sizes) = .ok (l.ask query).kernel.geometry := by
  change _ = Except.ok ((query.run.run l.directory).1.toOption.getD l.kernel).geometry
  unfold granted
  cases houtcome : (query.run.run l.directory).1 with
  | error e => rfl
  | ok k => exact h l.directory k houtcome

/-- The geometry is what the assigned sizes make of it. -/
theorem step_geometry (b : Backend σ) (l : Life σ) (op : Op) :
    l.kernel.geometry.setAll (l.sizesAssigned op) = .ok (l.step b op).kernel.geometry := by
  cases op with
  | platforms ps => rfl
  | refresh => rfl
  | select index => rfl
  | set s a => exact l.ask_geometry (set_geometry l.platforms l.kernel s a)
  | edit list options => cases list <;> rfl
  | define types names =>
      change _ = Except.ok ((l.kernel.defineTypes types names).toOption.getD l.kernel).geometry
      unfold defineTypes
      cases Signature.override l.kernel.parameters types names <;> rfl
  | copy fields => exact l.ask_geometry (withChanges_geometry l.platforms l.kernel fields)
  | build extra => exact congrArg Except.ok (step_build b l extra).geometry.symm
  | call args inPlace => exact congrArg Except.ok (step_call b l args inPlace).geometry.symm

theorem run_geometry (b : Backend σ) (l : Life σ) (ops : List Op) :
    l.kernel.geometry.setAll (sizesAssignedBy b l ops) = .ok (l.run b ops).kernel.geometry := by
  induction ops generalizing l with
  | nil => rfl
  | cons op rest ih => exact Dispatch.setAll_append (step_geometry b l op) (ih (l.step b op))

/-- The launch vectors of a request after a sequence of size assignments. -/
structure Sized (sizes : List (Field × Value)) (request : RunRequest)
    (offset global block : Triple Int) : Prop where
  launch_eq : request.launch = offset.toList ++ global.toList
  block_eq : request.block = block.toList
  offset_nonneg : ∀ i, 0 ≤ offset.along i
  /-- In each dimension there is a positive number of whole blocks. -/
  whole : ∀ i, ∃ n, 0 < n ∧ global.along i = n * block.along i
  /-- There are threads, unless a block size of zero was assigned there last. -/
  positive : ∀ i, ¬ Dispatch.Emptied i sizes → 0 < block.along i ∧ 0 < global.along i
  empty : ∀ i, Dispatch.Emptied i sizes → block.along i = 0 ∧ global.along i = 0

theorem sized_of_geometry {sizes : List (Field × Value)} {d : Dispatch}
    (h : Dispatch.initial.setAll sizes = .ok d) {request : RunRequest}
    (hblock : request.block = d.block.toList)
    (hlaunch : request.launch = d.offset.toList ++ d.global.toList) :
    Sized sizes request d.offset d.global d.block := by
  obtain ⟨hnonneg, hgrid, hoffset⟩ := Dispatch.initial_admissible.setAll h
  have hzero (i : Axis) : d.block.along i = 0 ↔ Dispatch.Emptied i sizes :=
    Dispatch.setAll_block_eq_zero_iff h (by cases i <;> decide)
  have hglobal (i : Axis) : d.global.along i = d.grid.along i * d.block.along i :=
    Triple.along_zipWith ..
  refine ⟨hlaunch, hblock, hoffset, fun i => ⟨d.grid.along i, hgrid i, hglobal i⟩,
    fun i hi => ?_, fun i hi => ?_⟩
  · have hne : d.block.along i ≠ 0 := fun h => hi ((hzero i).mp h)
    have hpos : 0 < d.block.along i := Int.lt_iff_le_and_ne.mpr ⟨hnonneg i, hne.symm⟩
    exact ⟨hpos, hglobal i ▸ Int.mul_pos (hgrid i) hpos⟩
  · have hnone := (hzero i).mpr hi
    exact ⟨hnone, by rw [hglobal, hnone, Int.mul_zero]⟩

/-- After any operations on a kernel with the initial geometry, every launch covers a positive
number of whole blocks, and has threads in each dimension whose last block assignment was not
zero. -/
theorem run_sized (b : Backend σ) {l : Life σ} (h : l.kernel.geometry = .initial) (ops : List Op)
    (op : Op) {request : RunRequest} (hlaunch : request ∈ (l.run b ops).launches b op) :
    ∃ offset global block, Sized (sizesAssignedBy b l ops) request offset global block := by
  have hgeometry := run_geometry b l ops
  rw [h] at hgeometry
  obtain ⟨_, _, hblock, hvectors⟩ := launch_within b (l.run b ops) op hlaunch
  refine ⟨_, _, _, sized_of_geometry hgeometry hblock ?_⟩
  rw [hvectors, hblock]
  rfl

/-- A block of four threads, and then a global size of six. -/
def sixThreads : List Op :=
  [.set (.size .block) (.value (.int 4)), .set (.size .global) (.value (.int 6))]

/-- Six threads are launched in blocks of two. -/
theorem sample_sized :
    sample.kernel.geometry = .initial ∧
    ∃ request ∈ (sample.run loopback sixThreads).launches loopback (.call [] false),
      request.block = [2, 1, 1] ∧
      ∃ offset global block, Sized (sizesAssignedBy loopback sample sixThreads) request
        offset global block := by
  have hinitial : sample.kernel.geometry = .initial := rfl
  have hmem : (⟨⟨0, "P", sampleNative "first"⟩, "f", [0, 0, 0, 6, 1, 1], [2, 1, 1], [], []⟩ :
      RunRequest) ∈ (sample.run loopback sixThreads).launches loopback (.call [] false) :=
    List.mem_singleton.mpr (by rfl)
  exact ⟨hinitial, _, hmem, rfl, run_sized loopback hinitial sixThreads _ hmem⟩

/-- A zero block size is launched with a global size of zero in its dimension. -/
theorem zero_block_is_launched :
    ((sample.run loopback [.set (.size .block) (.value (.int 0))]).launches loopback
      (.call [] false)).map (fun request => (request.launch, request.block)) =
      [([0, 0, 0, 0, 1, 1], [0, 1, 1])] := by
  decide +kernel

end Life

end KernelLaunch
