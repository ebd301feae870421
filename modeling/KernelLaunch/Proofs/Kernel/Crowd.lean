import KernelLaunch.Kernel.Load
import KernelLaunch.Proofs.Backend.Settled
import KernelLaunch.Proofs.Kernel.Handles
import KernelLaunch.Proofs.Kernel.Rebuilding

/-!
Non-interference of kernels that share one heap, one directory and one backend. Kernels are
constructed, copied and used in any interleaving, and each has a story: the operations on it
and on the kernel it was copied from. The main statement is that a kernel's state is what
its own story alone produces.
-/

namespace KernelLaunch

open Host Device Backend Kernel Directory

variable {σ : Type}

structure Crowd (σ : Type) where
  handles : String → Option Handle
  cells : Cells
  directory : Directory
  world : World σ

/-- Assignments leave the devices as they are. -/
theorem Assigning.Reads.keeps {assigned : Assigning} {x : Query Kernel} {c : Cells}
    {d : Directory} {touched : List Nat} (hreads : assigned.Reads x c d touched)
    {platforms : Platforms} (hx : Keeps platforms x) :
    visible platforms assigned.directory = visible platforms d := by
  have hkeeps := hx d
  rwa [hreads.reads] at hkeeps

namespace Crowd

inductive Op where
  /-- A kernel is made from a source, for the device that is selected. -/
  | create (slot : String) (loaded : LoadedSource) (wanted : Option String)
  | select (index : Value)
  | on (slot : String) (use : Use)
  | withChanges (slot target : String) (fields : List (String × Assigned))

def start (d : Directory) (w : World σ) : Crowd σ := ⟨fun _ => none, .empty, d, w⟩

def put (s : Crowd σ) (slot : String) (h : Option Handle) : Crowd σ :=
  { s with handles := Function.update s.handles slot h }

/-- The kernel in a slot, as it can be read. -/
def kernel? (s : Crowd σ) (slot : String) : Option Kernel := (s.handles slot).map (·.read s.cells)

/-- Makes a kernel in new cells. The slot is emptied first. -/
def create (platforms : Platforms) (s : Crowd σ) (slot : String) (loaded : LoadedSource)
    (wanted : Option String) : Crowd σ :=
  match Kernel.ofSource loaded wanted with
  | .error _ => s.put slot none
  | .ok make =>
      let (device, directory) := Steps.perform (current platforms) s.directory
      match device with
      | .error _ => { s with directory }.put slot none
      | .ok device =>
          { s with directory, cells := s.cells.place (make device) }.put slot
            (some (.place s.cells.next (make device)))

/-- Takes over what an assignment leaves. -/
def take (s : Crowd σ) (slot : String) (assigned : Assigning) : Crowd σ :=
  let s := { s with cells := assigned.cells, directory := assigned.directory }
  match assigned.outcome with
  | .ok h => s.put slot (some h)
  | .error _ => s

/-- Uses the kernel in a slot. -/
def use (b : Backend σ) (platforms : Platforms) (s : Crowd σ) (slot : String) (h : Handle) :
    Use → Crowd σ
  | .set setting a => s.take slot (h.assign platforms s.cells s.directory setting a)
  | .edit l change =>
      { s with cells :=
          s.cells.writeOptions (h.options l) (change (s.cells.options (h.options l))) }
  | .define types names =>
      match (h.read s.cells).defineTypes types names with
      | .ok k => s.put slot (some { h with parameters := k.parameters })
      | .error _ => s
  | .build extra =>
      let (built, world) := ((h.read s.cells).build b extra).perform s.world
      match built with
      | .ok (k, _) => { s with world }.put slot (some { h with built := k.built })
      | .error _ => { s with world }
  | .call args inPlace =>
      let called := (h.read s.cells).call b args inPlace s.world
      { s with world := called.world }.put slot (some { h with built := called.kernel.built })

/-- An operation. One on an empty slot does nothing. -/
def step (b : Backend σ) (platforms : Platforms) (s : Crowd σ) : Op → Crowd σ
  | .create slot loaded wanted => s.create platforms slot loaded wanted
  | .select index => { s with directory := (Steps.perform (select platforms index) s.directory).2 }
  | .on slot u =>
      match s.handles slot with
      | none => s
      | some h => s.use b platforms slot h u
  | .withChanges slot target fields =>
      match s.handles slot with
      | none => s
      | some h => s.take target (h.withChanges platforms s.cells s.directory fields)

def run (b : Backend σ) (platforms : Platforms) (s : Crowd σ) (ops : List Op) : Crowd σ :=
  ops.foldl (step b platforms) s

/-- The kernel that is made from a source. -/
def created (platforms : Platforms) (d : Directory) (loaded : LoadedSource)
    (wanted : Option String) : Option Kernel := do
  let make ← (Kernel.ofSource loaded wanted).toOption
  let device ← (Steps.perform (current platforms) d).1.toOption
  return make device

/-- The copy that is made of a kernel. -/
def copied (platforms : Platforms) (d : Directory) (k : Option Kernel)
    (fields : List (String × Assigned)) : Option Kernel :=
  k.bind fun k => (Steps.perform (k.withChanges platforms fields) d).1.toOption

/-- What stands in a slot after an operation, told from what can be read before it. -/
def Op.after (b : Backend σ) (platforms : Platforms) (s : Crowd σ) (other : String) :
    Op → Option Kernel
  | .create slot loaded wanted =>
      if other = slot then created platforms s.directory loaded wanted else s.kernel? other
  | .select _ => s.kernel? other
  | .on slot u =>
      if other = slot then (s.kernel? slot).map (u.after b platforms s.directory s.world)
      else s.kernel? other
  | .withChanges slot target fields =>
      if other = target then
        (copied platforms s.directory (s.kernel? slot) fields).or (s.kernel? other)
      else s.kernel? other

/-- No two kernels have a cell in common. -/
structure Apart (s : Crowd σ) : Prop where
  valid : ∀ slot h, s.handles slot = some h → h.Valid s.cells
  disjoint : ∀ slot slot' h h', slot ≠ slot' → s.handles slot = some h →
    s.handles slot' = some h' → ∀ n ∈ h.cells, n ∉ h'.cells

theorem start_apart (d : Directory) (w : World σ) : (start d w).Apart where
  valid _ _ h := by cases h
  disjoint _ _ _ _ _ h := by cases h

theorem kernel?_update {s t : Crowd σ} {slot : String} {h : Option Handle}
    (hhandles : t.handles = Function.update s.handles slot h) (other : String) :
    t.kernel? other = if other = slot then h.map (·.read t.cells)
      else (s.handles other).map (·.read t.cells) := by
  rw [kernel?, hhandles, Function.update_apply]
  split <;> rfl

namespace Apart

variable {s t : Crowd σ} {slot : String}

/-- A kernel reads the same if no cell of it is touched. -/
theorem read_other (hs : s.Apart) {touched : List Nat} (hspares : Spares s.cells touched t.cells)
    {other : String} (hother : ∀ h, s.handles other = some h → ∀ n ∈ h.cells, n ∉ touched) :
    (s.handles other).map (·.read t.cells) = s.kernel? other := by
  unfold kernel?
  cases hslot : s.handles other with
  | none => rfl
  | some h => exact congrArg some (hspares.read_other (hs.valid other h hslot) (hother h hslot))

/-- Nothing that a kernel refers to has changed. -/
theorem spare (hs : s.Apart) (hhandles : t.handles = s.handles)
    (hspares : Spares s.cells [] t.cells) :
    t.Apart ∧ ∀ other, t.kernel? other = s.kernel? other := by
  refine ⟨⟨?_, ?_⟩, ?_⟩
  · intro other h hother
    rw [hhandles] at hother
    exact (hs.valid other h hother).mono hspares.grows
  · rw [hhandles]
    exact hs.disjoint
  · intro other
    rw [kernel?, hhandles]
    exact hs.read_other hspares fun _ _ _ _ => List.not_mem_nil

/-- A kernel comes to stand in a slot, with cells that no other kernel has. -/
theorem put (hs : s.Apart) {touched : List Nat} {h : Handle}
    (hhandles : t.handles = Function.update s.handles slot (some h))
    (hlocal : Local s.cells touched t.cells h)
    (hothers : ∀ other h', other ≠ slot → s.handles other = some h' → ∀ n ∈ h'.cells, n ∉ touched) :
    t.Apart ∧ ∀ other, t.kernel? other =
      if other = slot then some (h.read t.cells) else s.kernel? other := by
  have hfar {other : String} {h' : Handle} (hne : other ≠ slot) (hh' : s.handles other = some h') :
      ∀ n ∈ h'.cells, n ∉ h.cells := by
    intro n hn hmem
    rcases hlocal.own n hmem with hold | hnew
    · exact hothers other h' hne hh' n hn hold
    · exact Nat.lt_irrefl _ (Nat.lt_of_lt_of_le ((hs.valid other h' hh').used n hn) hnew)
  refine ⟨⟨?_, ?_⟩, ?_⟩
  · intro other h' hother
    rw [hhandles, Function.update_apply] at hother
    split at hother
    · cases hother
      exact hlocal.valid
    · exact (hs.valid other h' hother).mono hlocal.grows
  · intro one two h₁ h₂ hne hone htwo
    rw [hhandles, Function.update_apply] at hone htwo
    split at hone
    · next hslot =>
      rw [if_neg (hslot ▸ hne.symm)] at htwo
      cases hone
      intro n hn hmem
      exact hfar (hslot ▸ hne.symm) htwo n hmem hn
    · next hslot =>
      split at htwo
      · cases htwo
        exact hfar hslot hone
      · exact hs.disjoint one two h₁ h₂ hne hone htwo
  · intro other
    rw [kernel?_update hhandles]
    split
    · rfl
    · next hne => exact hs.read_other hlocal.toSpares fun h' => hothers other h' hne

/-- A slot is emptied. -/
theorem clear (hs : s.Apart) (hhandles : t.handles = Function.update s.handles slot none)
    (hcells : t.cells = s.cells) :
    t.Apart ∧ ∀ other, t.kernel? other = if other = slot then none else s.kernel? other := by
  have hkept {other : String} {h : Handle} (hother : t.handles other = some h) :
      s.handles other = some h := by
    rw [hhandles, Function.update_apply] at hother
    split at hother
    · cases hother
    · exact hother
  refine ⟨⟨?_, ?_⟩, ?_⟩
  · intro other h hother
    rw [hcells]
    exact hs.valid other h (hkept hother)
  · intro one two h₁ h₂ hne hone htwo
    exact hs.disjoint one two h₁ h₂ hne (hkept hone) (hkept htwo)
  · intro other
    rw [kernel?_update hhandles, hcells]
    rfl

/-- A kernel is used, with no cells but its own and new ones. -/
theorem put_own (hs : s.Apart) {h h' : Handle} (hslot : s.handles slot = some h)
    (hhandles : t.handles = Function.update s.handles slot (some h'))
    (hlocal : Local s.cells h.cells t.cells h') :
    t.Apart ∧ ∀ other, t.kernel? other =
      if other = slot then some (h'.read t.cells) else s.kernel? other :=
  hs.put hhandles hlocal fun _ _ hne hother => hs.disjoint _ _ _ _ hne hother hslot

end Apart

section Steps

variable {s : Crowd σ} {slot : String}

theorem kernel?_of_some {h : Handle} (hslot : s.handles slot = some h) :
    s.kernel? slot = some (h.read s.cells) := by
  rw [kernel?, hslot]
  rfl

theorem kernel?_of_none (hslot : s.handles slot = none) : s.kernel? slot = none := by
  rw [kernel?, hslot]
  rfl

/-- What an assignment that succeeds leaves in a slot is what it comes to. -/
theorem take_reads (slot : String) (hs : s.Apart) {x : Query Kernel} {touched : List Nat}
    {assigned : Assigning}
    (hreads : assigned.Reads x s.cells s.directory touched)
    (hothers : ∀ other h', other ≠ slot → s.handles other = some h' → ∀ n ∈ h'.cells, n ∉ touched)
    {h : Handle} (hok : assigned.outcome = .ok h) :
    (s.take slot assigned).Apart ∧ ∀ other, (s.take slot assigned).kernel? other =
      if other = slot then (Steps.perform x s.directory).1.toOption else s.kernel? other := by
  have htake : s.take slot assigned =
      { s with cells := assigned.cells, directory := assigned.directory }.put slot (some h) := by
    rw [take, hok]
  have hperform : (Steps.perform x s.directory).1.toOption = some (h.read assigned.cells) := by
    rw [hreads.reads, hok]
    rfl
  rw [htake, hperform]
  exact hs.put rfl (hreads.stays h hok) hothers

theorem create_reads (hs : s.Apart) (platforms : Platforms) (loaded : LoadedSource)
    (wanted : Option String) :
    (s.create platforms slot loaded wanted).Apart ∧
      ∀ other, (s.create platforms slot loaded wanted).kernel? other =
        if other = slot then created platforms s.directory loaded wanted else s.kernel? other := by
  unfold create created
  cases Kernel.ofSource loaded wanted with
  | error e => exact hs.clear rfl rfl
  | ok make =>
      cases Steps.perform (current platforms) s.directory with
      | mk device after =>
          cases device with
          | error e => exact hs.clear rfl rfl
          | ok device =>
              have hput := hs.put (t := { s with
                  directory := after, cells := s.cells.place (make device) }.put slot
                    (some (.place s.cells.next (make device)))) rfl
                (Local.place s.cells (make device)) fun _ _ _ _ _ _ => List.not_mem_nil
              have hread := Handle.read_place s.cells (make device)
              refine ⟨hput.1, ?_⟩
              intro other
              rw [hput.2 other]
              exact congrArg (fun k => if other = slot then some k else s.kernel? other) hread

theorem defineTypes_settings {k k' : Kernel} {types names : Value}
    (h : k.defineTypes types names = .ok k') : k' = { k with parameters := k'.parameters } := by
  obtain ⟨_, _, hk⟩ := Steps.bind_ok_iff.mp h
  cases hk
  rfl

/-- Nothing has become of the kernel in a slot. -/
theorem spare_own (hs : s.Apart) {h : Handle} (hslot : s.handles slot = some h) {t : Crowd σ}
    (hhandles : t.handles = s.handles) (hcells : t.cells = s.cells) :
    t.Apart ∧ ∀ other, t.kernel? other =
      if other = slot then some (h.read s.cells) else s.kernel? other := by
  obtain ⟨hapart, hkernel⟩ := hs.spare hhandles (hcells ▸ .refl s.cells [])
  refine ⟨hapart, ?_⟩
  intro other
  rw [hkernel other]
  by_cases heq : other = slot
  · rw [if_pos heq, heq, kernel?_of_some hslot]
  · rw [if_neg heq]

/-- The kernel in a slot is replaced by one with the same cells. -/
theorem replace_own (hs : s.Apart) {h h' : Handle} (hslot : s.handles slot = some h) {k : Kernel}
    (hread : h'.read s.cells = k) {t : Crowd σ}
    (hhandles : t.handles = Function.update s.handles slot (some h'))
    (hcells : t.cells = s.cells) (hsame : h'.cells = h.cells) :
    t.Apart ∧ ∀ other, t.kernel? other = if other = slot then some k else s.kernel? other := by
  have hlocal : Local s.cells h.cells t.cells h' := by
    rw [hcells]
    exact Local.congr (.refl (hs.valid slot h hslot)) hsame
  have hput := hs.put_own hslot hhandles hlocal
  rwa [hcells, hread] at hput

theorem use_reads (hs : s.Apart) (b : Backend σ) (platforms : Platforms) {h : Handle}
    (hslot : s.handles slot = some h) (u : Use) :
    (s.use b platforms slot h u).Apart ∧ ∀ other, (s.use b platforms slot h u).kernel? other =
      if other = slot then some (u.after b platforms s.directory s.world (h.read s.cells))
      else s.kernel? other := by
  have hvalid := hs.valid slot h hslot
  cases u with
  | set setting a =>
      have hreads := Handle.assign_reads platforms hvalid s.directory setting a
      simp only [use, Use.after]
      cases houtcome : (h.assign platforms s.cells s.directory setting a).outcome with
      | error e =>
          have htake : s.take slot (h.assign platforms s.cells s.directory setting a) =
              { s with
                directory := (h.assign platforms s.cells s.directory setting a).directory } := by
            rw [take, houtcome, Handle.assign_error houtcome]
          rw [htake, hreads.reads, houtcome]
          exact spare_own hs hslot rfl rfl
      | ok h' =>
          have htake := take_reads slot hs hreads
            (fun _ _ hne hother => hs.disjoint _ _ _ _ hne hother hslot) houtcome
          rw [hreads.reads, houtcome] at htake ⊢
          exact htake
  | edit l change =>
      have hput := hs.put_own (t := s.use b platforms slot h (.edit l change)) hslot
        (by rw [← hslot, Function.update_eq_self]; rfl) (.writeOptions hvalid l _)
      simp only [use, Use.after] at hput ⊢
      rw [Handle.read_writeOptions hvalid] at hput
      rw [Handle.read_optionsIn]
      exact hput
  | define types names =>
      simp only [use, Use.after]
      cases hdefine : (h.read s.cells).defineTypes types names with
      | error e => exact spare_own hs hslot rfl rfl
      | ok k =>
          have hread : Handle.read s.cells { h with parameters := k.parameters } = k :=
            (defineTypes_settings hdefine).symm
          exact replace_own hs hslot hread rfl rfl rfl
  | build extra =>
      simp only [use, Use.after]
      cases hbuild : ((h.read s.cells).build b extra).perform s.world with
      | mk built after =>
          cases built with
          | error e => exact spare_own hs hslot rfl rfl
          | ok pair =>
              obtain ⟨k, device⟩ := pair
              have hread : Handle.read s.cells { h with built := k.built } = k :=
                (build_settings hbuild).symm
              exact replace_own hs hslot hread rfl rfl rfl
  | call args inPlace =>
      have hread : Handle.read s.cells
          { h with built := ((h.read s.cells).call b args inPlace s.world).kernel.built } =
          ((h.read s.cells).call b args inPlace s.world).kernel :=
        (call_settings b (h.read s.cells) args inPlace s.world).symm
      exact replace_own hs hslot hread rfl rfl rfl

theorem withChanges_reads (hs : s.Apart) (platforms : Platforms) {h : Handle}
    (hslot : s.handles slot = some h) (target : String) (fields : List (String × Assigned)) :
    (s.take target (h.withChanges platforms s.cells s.directory fields)).Apart ∧
      ∀ other, (s.take target (h.withChanges platforms s.cells s.directory fields)).kernel? other =
        if other = target then
          (copied platforms s.directory (s.kernel? slot) fields).or (s.kernel? other)
        else s.kernel? other := by
  have hreads := Handle.withChanges_reads platforms h s.cells s.directory fields
  have hcopied : copied platforms s.directory (s.kernel? slot) fields =
      (Steps.perform ((h.read s.cells).withChanges platforms fields) s.directory).1.toOption := by
    rw [kernel?_of_some hslot]
    rfl
  rw [hcopied]
  cases houtcome : (h.withChanges platforms s.cells s.directory fields).outcome with
  | error e =>
      obtain ⟨hapart, hkernel⟩ := hs.spare
        (t := s.take target (h.withChanges platforms s.cells s.directory fields))
        (by rw [take, houtcome]) (by rw [take, houtcome]; exact hreads.spares)
      refine ⟨hapart, ?_⟩
      intro other
      rw [hkernel other, hreads.reads, houtcome]
      exact (ite_self _).symm
  | ok h' =>
      have htake := take_reads target hs hreads
        (fun _ _ _ _ _ _ => List.not_mem_nil) houtcome
      rw [hreads.reads, houtcome] at htake ⊢
      exact htake

/-- Kernels that share memory can be told apart: an operation comes to what it comes to for the
kernels that are read, and shares none of their cells. -/
theorem step_reads (hs : s.Apart) (b : Backend σ) (platforms : Platforms) (op : Op) :
    (s.step b platforms op).Apart ∧
      ∀ other, (s.step b platforms op).kernel? other = op.after b platforms s other := by
  cases op with
  | create slot loaded wanted => exact create_reads hs platforms loaded wanted
  | select index => exact hs.spare rfl (.refl s.cells [])
  | on slot u =>
      simp only [step, Op.after]
      cases hslot : s.handles slot with
      | none =>
          refine ⟨hs, ?_⟩
          intro other
          rw [kernel?_of_none hslot]
          by_cases heq : other = slot
          · rw [if_pos heq, heq, kernel?_of_none hslot]
            rfl
          · rw [if_neg heq]
      | some h =>
          rw [kernel?_of_some hslot]
          exact use_reads hs b platforms hslot u
  | withChanges slot target fields =>
      simp only [step, Op.after]
      cases hslot : s.handles slot with
      | none =>
          refine ⟨hs, ?_⟩
          intro other
          rw [kernel?_of_none hslot]
          exact (ite_self _).symm
      | some h => exact withChanges_reads hs platforms hslot target fields

end Steps

/-- What a kernel goes by: it can be told from the others, the devices are some devices, and the
world is as it is told to be. -/
structure Healthy (platforms : Platforms) (Q : World σ → Prop)
    (devices : Except Failure (List Device)) (s : Crowd σ) : Prop where
  apart : s.Apart
  world : Q s.world
  devices : visible platforms s.directory = devices

section Health

variable {platforms : Platforms} {b : Backend σ} {Q : World σ → Prop}
  {answer : CompileRequest → Except Failure (List String)}
  {devices : Except Failure (List Device)} {s : Crowd σ}

theorem take_directory (s : Crowd σ) (slot : String) (assigned : Assigning) :
    (s.take slot assigned).directory = assigned.directory ∧
      (s.take slot assigned).world = s.world := by
  unfold take
  split <;> exact ⟨rfl, rfl⟩

theorem create_directory (s : Crowd σ) (slot : String) (loaded : LoadedSource)
    (wanted : Option String) :
    visible platforms (s.create platforms slot loaded wanted).directory =
        visible platforms s.directory ∧
      (s.create platforms slot loaded wanted).world = s.world := by
  unfold create
  split
  · exact ⟨rfl, rfl⟩
  · have hkeeps := Keeps.current platforms s.directory
    cases hcurrent : Steps.perform (current platforms) s.directory with
    | mk device after =>
        rw [hcurrent] at hkeeps
        cases device with
        | error e => exact ⟨hkeeps, rfl⟩
        | ok device => exact ⟨hkeeps, rfl⟩

theorem use_directory (hs : s.Apart) {slot : String} {h : Handle}
    (hslot : s.handles slot = some h) (u : Use) :
    visible platforms (s.use b platforms slot h u).directory = visible platforms s.directory := by
  cases u with
  | set setting a =>
      have hreads := Handle.assign_reads platforms (hs.valid slot h hslot) s.directory setting a
      simp only [use]
      rw [(take_directory s slot _).1]
      exact hreads.keeps (set_blind platforms (h.read s.cells) setting a).keeps
  | edit => rfl
  | define types names =>
      simp only [use]
      split <;> rfl
  | build extra =>
      simp only [use]
      split <;> rfl
  | call => rfl

theorem use_world (hb : Settled b Q answer) (hw : Q s.world) (slot : String) (h : Handle)
    (u : Use) : Q (s.use b platforms slot h u).world := by
  cases u with
  | set setting a =>
      simp only [use]
      rw [(take_directory s slot _).2]
      exact hw
  | edit => exact hw
  | define types names =>
      simp only [use]
      split <;> exact hw
  | build extra =>
      have hbuild := build_preserves hb.note hb.compile (h.read s.cells) extra s.world hw
      simp only [use]
      cases hperform : ((h.read s.cells).build b extra).perform s.world with
      | mk built after =>
          rw [hperform] at hbuild
          cases built with
          | error e => exact hbuild
          | ok pair => exact hbuild
  | call args inPlace =>
      exact call_preserves hb.note hb.compile hb.run (h.read s.cells) args inPlace s.world hw

theorem Healthy.step (hb : Settled b Q answer) (hs : s.Healthy platforms Q devices) (op : Op) :
    (s.step b platforms op).Healthy platforms Q devices := by
  refine ⟨(step_reads hs.apart b platforms op).1, ?_, ?_⟩
  · cases op with
    | create slot loaded wanted => exact (create_directory s slot loaded wanted).2 ▸ hs.world
    | select => exact hs.world
    | on slot u =>
        simp only [Crowd.step]
        split
        · exact hs.world
        · exact use_world hb hs.world _ _ _
    | withChanges slot target fields =>
        simp only [Crowd.step]
        split
        · exact hs.world
        · rw [(take_directory s target _).2]
          exact hs.world
  · refine Eq.trans ?_ hs.devices
    cases op with
    | create slot loaded wanted => exact (create_directory s slot loaded wanted).1
    | select index => exact Keeps.select platforms index s.directory
    | on slot u =>
        simp only [Crowd.step]
        split
        · rfl
        · next h hslot => exact use_directory hs.apart hslot u
    | withChanges slot target fields =>
        simp only [Crowd.step]
        split
        · rfl
        · next h hslot =>
          have hreads := Handle.withChanges_reads platforms h s.cells s.directory fields
          rw [(take_directory s target _).1]
          exact hreads.keeps (withChanges_blind platforms (h.read s.cells) fields).keeps

theorem Healthy.run (hb : Settled b Q answer) (hs : s.Healthy platforms Q devices)
    (ops : List Op) : (s.run b platforms ops).Healthy platforms Q devices := by
  induction ops generalizing s with
  | nil => exact hs
  | cons op rest ih => exact ih (hs.step hb op)

end Health

/-- The story of a kernel: the directory at its construction, or at that of the kernel it was
copied from, and all operations on it since. -/
structure Story where
  directory : Directory
  ops : List Op

/-- A story goes on. -/
def Story.then (story : Story) (op : Op) : Story := { story with ops := story.ops ++ [op] }

/-- The stories of the kernels after an operation. A kernel that is made starts a story, and a
copy goes on with that of its original; nothing else is in a story than what is done to its
kernel. -/
def retold (platforms : Platforms) (s : Crowd σ) (stories : String → Option Story) :
    Op → String → Option Story
  | .create slot loaded wanted =>
      Function.update stories slot (some ⟨s.directory, [.create slot loaded wanted]⟩)
  | .select _ => stories
  | .on slot u => Function.update stories slot ((stories slot).map (·.then (.on slot u)))
  | .withChanges slot target fields =>
      if (copied platforms s.directory (s.kernel? slot) fields).isSome then
        Function.update stories target
          ((stories slot).map (·.then (.withChanges slot target fields)))
      else stories

/-- The stories of the kernels after several operations. -/
def told (b : Backend σ) (platforms : Platforms) (s : Crowd σ)
    (stories : String → Option Story) : List Op → String → Option Story
  | [] => stories
  | op :: rest => told b platforms (s.step b platforms op) (retold platforms s stories op) rest

/-- The kernel that a story produces when it is run without any other kernel. -/
def alone (b : Backend σ) (platforms : Platforms) (w : World σ) (slot : String)
    (story : Story) : Option Kernel :=
  ((start story.directory w).run b platforms story.ops).kernel? slot

section Stories

variable {platforms : Platforms} {b : Backend σ} {Q : World σ → Prop}
  {answer : CompileRequest → Except Failure (List String)}
  {devices : Except Failure (List Device)} {s : Crowd σ} {w : World σ}

theorem run_append (s : Crowd σ) (ops : List Op) (op : Op) :
    s.run b platforms (ops ++ [op]) = (s.run b platforms ops).step b platforms op := by
  rw [run, List.foldl_append]
  rfl

/-- Each kernel is as its story alone makes it. -/
structure Tells (b : Backend σ) (platforms : Platforms)
    (devices : Except Failure (List Device)) (w : World σ) (s : Crowd σ)
    (stories : String → Option Story) : Prop where
  kernels : ∀ slot, s.kernel? slot = (stories slot).bind (alone b platforms w slot)
  devices : ∀ slot story, stories slot = some story →
    visible platforms story.directory = devices

theorem start_tells (d : Directory) (w w' : World σ) :
    Tells b platforms devices w (start d w') fun _ => none where
  kernels _ := rfl
  devices _ _ h := by cases h

/-- In a story that goes on, the operation comes to the same as among all kernels. -/
theorem alone_then (hb : Settled b Q answer) (hw : Q w) {story : Story}
    (hstory : visible platforms story.directory = devices) (slot : String) (op : Op) :
    ∃ before : Crowd σ, before.Healthy platforms Q devices ∧
      (∀ other, before.kernel? other = alone b platforms w other story) ∧
      alone b platforms w slot (story.then op) = op.after b platforms before slot := by
  have hstart : (start story.directory w).Healthy platforms Q devices :=
    ⟨start_apart _ _, hw, hstory⟩
  have hbefore := hstart.run hb story.ops
  refine ⟨_, hbefore, fun _ => rfl, ?_⟩
  unfold alone Story.then
  rw [run_append]
  exact (step_reads hbefore.apart b platforms op).2 slot

theorem copied_eq {d d' : Directory} (hvisible : visible platforms d = visible platforms d')
    (k : Option Kernel) (fields : List (String × Assigned)) :
    copied platforms d k fields = copied platforms d' k fields := by
  cases k with
  | none => rfl
  | some k =>
      exact congrArg Except.toOption ((withChanges_blind platforms k fields).outcome d d' hvisible)

namespace Tells

variable {stories : String → Option Story}

/-- A kernel that is used goes on with its own story. -/
theorem on (hb : Settled b Q answer) (hw : Q w) (hs : s.Healthy platforms Q devices)
    (h : Tells b platforms devices w s stories) (slot : String) (u : Use) :
    (s.kernel? slot).map (u.after b platforms s.directory s.world) =
      ((stories slot).map (·.then (.on slot u))).bind (alone b platforms w slot) := by
  have hkernel := h.kernels slot
  cases hstory : stories slot with
  | none =>
      rw [hstory] at hkernel
      rw [hkernel]
      rfl
  | some story =>
      rw [hstory] at hkernel
      obtain ⟨before, hbefore, halone, hthen⟩ :=
        alone_then hb hw (h.devices slot story hstory) slot (.on slot u)
      have hsame : before.kernel? slot = s.kernel? slot := (halone slot).trans hkernel.symm
      have hvisible := hs.devices.trans hbefore.devices.symm
      simp only [Option.map_some, Option.bind_some]
      rw [hthen, Op.after, if_pos rfl, hsame]
      cases s.kernel? slot with
      | none => rfl
      | some k => exact congrArg some (Use.after_eq hb hvisible hs.world hbefore.world k u)

/-- A copy goes on with the story of its original. -/
theorem withChanges (hb : Settled b Q answer) (hw : Q w) (hs : s.Healthy platforms Q devices)
    (h : Tells b platforms devices w s stories) (slot target : String)
    (fields : List (String × Assigned)) {k : Kernel}
    (hcopied : copied platforms s.directory (s.kernel? slot) fields = some k) :
    some k = ((stories slot).map (·.then (.withChanges slot target fields))).bind
      (alone b platforms w target) := by
  have hkernel := h.kernels slot
  cases hstory : stories slot with
  | none =>
      rw [hstory] at hkernel
      rw [hkernel] at hcopied
      cases hcopied
  | some story =>
      rw [hstory] at hkernel
      obtain ⟨before, hbefore, halone, hthen⟩ :=
        alone_then hb hw (h.devices slot story hstory) target (.withChanges slot target fields)
      have hsame : before.kernel? slot = s.kernel? slot := (halone slot).trans hkernel.symm
      have hvisible := hbefore.devices.trans hs.devices.symm
      simp only [Option.map_some, Option.bind_some]
      rw [hthen, Op.after, if_pos rfl, hsame, copied_eq hvisible, hcopied]
      rfl

/-- The kernel of one slot and its story are replaced. -/
theorem update (h : Tells b platforms devices w s stories) {s' : Crowd σ} {slot : String}
    {k : Option Kernel} {story : Option Story}
    (hkernels : ∀ other, s'.kernel? other = if other = slot then k else s.kernel? other)
    (hkernel : k = story.bind (alone b platforms w slot))
    (hdevices : ∀ own, story = some own → visible platforms own.directory = devices) :
    Tells b platforms devices w s' (Function.update stories slot story) := by
  constructor
  · intro other
    rw [hkernels other, Function.update_apply]
    split
    · next heq => exact heq ▸ hkernel
    · exact h.kernels other
  · intro other own hown
    rw [Function.update_apply] at hown
    split at hown
    · exact hdevices own hown
    · exact h.devices other own hown

theorem then_devices (h : Tells b platforms devices w s stories) (slot : String) (op : Op)
    (own : Story) (hown : (stories slot).map (·.then op) = some own) :
    visible platforms own.directory = devices := by
  obtain ⟨before, hbefore, rfl⟩ := Option.map_eq_some_iff.mp hown
  exact h.devices slot before hbefore

theorem step (hb : Settled b Q answer) (hw : Q w) (hs : s.Healthy platforms Q devices)
    (h : Tells b platforms devices w s stories) (op : Op) :
    Tells b platforms devices w (s.step b platforms op) (retold platforms s stories op) := by
  have hreads := (step_reads hs.apart b platforms op).2
  cases op with
  | create slot loaded wanted =>
      have hfirst := (step_reads (start_apart s.directory w) b platforms
        (.create slot loaded wanted)).2 slot
      rw [Op.after, if_pos rfl] at hfirst
      refine h.update hreads hfirst.symm ?_
      intro own hown
      cases hown
      exact hs.devices
  | select index => exact ⟨fun other => (hreads other).trans (h.kernels other), h.devices⟩
  | on slot u => exact h.update hreads (h.on hb hw hs slot u) (h.then_devices slot _)
  | withChanges slot target fields =>
      simp only [retold]
      cases hcopied : copied platforms s.directory (s.kernel? slot) fields with
      | none =>
          refine ⟨?_, h.devices⟩
          intro other
          rw [hreads other, Op.after, hcopied, Option.none_or, ite_self]
          exact h.kernels other
      | some k =>
          rw [Option.isSome_some, if_pos rfl]
          have hkernels : ∀ other, (s.step b platforms (.withChanges slot target fields)).kernel?
              other = if other = target then some k else s.kernel? other := by
            intro other
            rw [hreads other, Op.after, hcopied]
            rfl
          exact h.update hkernels (h.withChanges hb hw hs slot target fields hcopied)
            (h.then_devices slot _)

end Tells

/-- A story holds some of the operations that there have been, in order. -/
theorem retold_sublist (platforms : Platforms) (s : Crowd σ)
    {stories : String → Option Story} {done : List Op}
    (h : ∀ slot story, stories slot = some story → story.ops.Sublist done) (op : Op) :
    ∀ slot story, retold platforms s stories op slot = some story →
      story.ops.Sublist (done ++ [op]) := by
  have hkept {slot : String} {story : Story} (hstory : stories slot = some story) :
      story.ops.Sublist (done ++ [op]) :=
    (h slot story hstory).trans (List.sublist_append_left done [op])
  have hthen {slot : String} {story : Story}
      (hstory : (stories slot).map (·.then op) = some story) :
      story.ops.Sublist (done ++ [op]) := by
    obtain ⟨before, hbefore, rfl⟩ := Option.map_eq_some_iff.mp hstory
    exact (h slot before hbefore).append_right [op]
  have hupdate {target slot : String} {new : Option Story} {story : Story}
      (hnew : ∀ story, new = some story → story.ops.Sublist (done ++ [op]))
      (hstory : Function.update stories target new slot = some story) :
      story.ops.Sublist (done ++ [op]) := by
    rw [Function.update_apply] at hstory
    split at hstory
    · exact hnew story hstory
    · exact hkept hstory
  intro slot story hstory
  cases op with
  | create target loaded wanted =>
      refine hupdate ?_ hstory
      intro new hnew
      cases hnew
      exact List.sublist_append_right done _
  | select => exact hkept hstory
  | on target u => exact hupdate (fun _ hnew => hthen hnew) hstory
  | withChanges source target fields =>
      simp only [retold] at hstory
      split at hstory
      · exact hupdate (fun _ hnew => hthen hnew) hstory
      · exact hkept hstory

theorem told_sublist (b : Backend σ) (platforms : Platforms) (s : Crowd σ)
    {stories : String → Option Story} {done : List Op}
    (h : ∀ slot story, stories slot = some story → story.ops.Sublist done) (ops : List Op) :
    ∀ slot story, told b platforms s stories ops slot = some story →
      story.ops.Sublist (done ++ ops) := by
  induction ops generalizing s stories done with
  | nil =>
      rw [List.append_nil]
      exact h
  | cons op rest ih =>
      have hrest := ih (s.step b platforms op)
        (retold_sublist platforms s h op)
      rwa [List.append_assoc] at hrest

end Stories

/-- Non-interference: after any interleaving of operations, each kernel is what its own story
produces alone, and the story is a sublist of these operations. -/
theorem run_alone {b : Backend σ} {Q : World σ → Prop}
    {answer : CompileRequest → Except Failure (List String)} (hb : Settled b Q answer)
    (platforms : Platforms) (d : Directory) {w w' : World σ} (hw : Q w) (hw' : Q w')
    (ops : List Op) (slot : String) :
    ((start d w).run b platforms ops).kernel? slot =
        (told b platforms (start d w) (fun _ => none) ops slot).bind
          (alone b platforms w' slot) ∧
      ∀ story, told b platforms (start d w) (fun _ => none) ops slot = some story →
        story.ops.Sublist ops := by
  have hrun : ∀ (s : Crowd σ) stories, s.Healthy platforms Q (visible platforms d) →
      Tells b platforms (visible platforms d) w' s stories →
      Tells b platforms (visible platforms d) w' (s.run b platforms ops)
        (told b platforms s stories ops) := by
    induction ops with
    | nil => exact fun _ _ _ htells => htells
    | cons op rest ih =>
        intro s stories hs htells
        exact ih _ _ (hs.step hb op) (htells.step hb hw' hs op)
  refine ⟨(hrun _ _ ⟨start_apart d w, hw, rfl⟩ (start_tells d w' w)).kernels slot, ?_⟩
  have hnone : ∀ (other : String) (story : Story), none = some story → story.ops.Sublist [] :=
    fun _ _ h => by cases h
  exact told_sublist b platforms (start d w) hnone ops slot

/-- One device, and a machine with one source. -/
def samplePlatforms : Platforms := .ok [⟨"P", [Life.sampleNative "first"]⟩]

def sampleWorld : World Machine := ⟨{ files := { temporary := ["kernel void f()"] } }, []⟩

/-- A kernel is copied, and both go on, while no device is selected. -/
def sampleOps : List Op :=
  [.create "a" ⟨.temporary 0, "kernel void f()", []⟩ none,
    .on "a" (.set (.size .block) (.value (.int 4))),
    .withChanges "a" "b" [("macros", .value (.text "N"))],
    .select .absent,
    .on "b" (.edit .macros (· ++ [.text "M"])),
    .on "a" (.build .absent),
    .on "b" (.set (.size .block) (.value (.int 8))),
    .create "c" ⟨.temporary 0, "kernel void f()", []⟩ none]

/-- The crowd after that. -/
def sampleRun : Crowd Machine :=
  (start (.initial {}) sampleWorld).run openCL samplePlatforms sampleOps

def sampleTold : String → Option Story :=
  told openCL samplePlatforms (start (.initial {}) sampleWorld) (fun _ => none) sampleOps

theorem sample_alone :
    Settled openCL (Surrounded sampleWorld.state.files {})
      (OpenCL.answer sampleWorld.state.files {}) ∧
    Surrounded sampleWorld.state.files {} sampleWorld ∧
    (sampleTold "b").map (·.ops.length) = some 5 ∧
    (sampleRun.kernel? "a").map (fun k => (k.geometry.block.x, k.macros.length)) = some (4, 0) ∧
    (sampleRun.kernel? "b").map (fun k => (k.geometry.block.x, k.macros.length)) = some (8, 2) ∧
    sampleRun.kernel? "b" =
      (sampleTold "b").bind (alone openCL samplePlatforms sampleWorld "b") := by
  have hb := openCL_settled sampleWorld.state.files {}
  have hw : Surrounded sampleWorld.state.files {} sampleWorld := ⟨rfl, rfl⟩
  refine ⟨hb, hw, ?_, ?_, ?_, ?_⟩
  · decide +kernel
  · decide +kernel
  · decide +kernel
  · exact (run_alone hb samplePlatforms (.initial {}) hw hw sampleOps "b").1

end Crowd

end KernelLaunch
