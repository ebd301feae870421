import KernelLaunch.Kernel.Load
import KernelLaunch.Proofs.Backend.Ledger
import KernelLaunch.Proofs.Kernel.Rebuilding

/-!
Ensembles of kernels over one OpenCL backend and one device directory: construction, copies
and any operations on each of them, in any order. Invariant: the program table is the one
that the record of exchanges tells of, and every kernel's remembered build is in the record.
-/

namespace KernelLaunch

open Host Device Backend Kernel

/-- A kernel, with its last build or that of the kernel it is a copy of. -/
structure Member where
  kernel : Kernel
  lastBuild : Option LastBuild

structure Ensemble where
  members : String → Option Member
  directory : Directory
  platforms : Platforms
  world : World (Recorded Machine)

namespace Ensemble

inductive Op where
  /-- A kernel is made from a source. -/
  | construct (slot source : String) (given : Option Template.Given) (wanted : Option String)
  /-- Anything is done to a kernel, or to the directory. -/
  | on (slot : String) (op : Life.Op)
  | withChanges (slot target : String) (fields : List (String × Assigned))
  /-- The files change, and the ways in which operations go or fail. -/
  | surroundings (files : Files) (setup : Setup)

/-- A machine that no kernel has used, with any native objects. -/
def initial (machine : Machine) (directory : Directory) (platforms : Platforms) :
    Ensemble where
  members _ := none
  directory := directory
  platforms := platforms
  world := ⟨{ state := { machine with openCL := {} } }, []⟩

def put (s : Ensemble) (slot : String) (m : Member) : Ensemble :=
  { s with members := fun other => if other = slot then some m else s.members other }

theorem put_members (s : Ensemble) (slot other : String) (m : Member) :
    (s.put slot m).members other = if other = slot then some m else s.members other := rfl

/-- The life of a member. -/
def life (s : Ensemble) (m : Member) : Life Machine :=
  ⟨m.kernel, s.directory, s.platforms, s.world, m.lastBuild⟩

def construct (s : Ensemble) (slot source : String) (given : Option Template.Given)
    (wanted : Option String) : Ensemble :=
  let (loaded, w) := (LoadedSource.load source given).perform s.world.erased
  let s := { s with world := ⟨⟨w.state, s.world.state.record⟩, w.notes⟩ }
  match loaded.bind (Kernel.ofSource · wanted) with
  | .error _ => s
  | .ok make =>
      let (device, directory) := (Directory.current s.platforms).run.run s.directory
      let s := { s with directory }
      match device with
      | .error _ => s
      | .ok device => s.put slot ⟨make device, none⟩

def withChanges (s : Ensemble) (m : Member) (target : String)
    (fields : List (String × Assigned)) : Ensemble :=
  let (copy, directory) := (m.kernel.withChanges s.platforms fields).run.run s.directory
  let s := { s with directory }
  match copy with
  | .error _ => s
  | .ok kernel => s.put target { m with kernel }

/-- Takes over what has become of a member. -/
def settle (s : Ensemble) (slot : String) (l : Life Machine) : Ensemble :=
  { s with directory := l.directory, platforms := l.platforms, world := l.world }.put slot
    ⟨l.kernel, l.lastBuild⟩

/-- An operation. One on an empty slot does nothing. -/
def step (s : Ensemble) : Op → Ensemble
  | .construct slot source given wanted => s.construct slot source given wanted
  | .on slot op =>
      match s.members slot with
      | none => s
      | some m => s.settle slot ((s.life m).step openCL op)
  | .withChanges slot target fields =>
      match s.members slot with
      | none => s
      | some m => s.withChanges m target fields
  | .surroundings files setup =>
      { s with world := ⟨⟨{ s.world.state.state with files, setup }, s.world.state.record⟩,
        s.world.notes⟩ }

def run (s : Ensemble) (ops : List Op) : Ensemble := ops.foldl step s

/-- What has passed between the kernels and the backend. -/
def record (s : Ensemble) : List Exchange := s.world.state.record

/-- What passes during an operation. -/
def exchanges (s : Ensemble) (op : Op) : List Exchange := (s.step op).record.drop s.record.length

/-- The ensemble invariant: the program table is the one that the record tells of, and every
build that a member remembers is a compilation on record. -/
structure Sound (s : Ensemble) : Prop where
  ledger : Ledger.InWorld s.world
  consistent : ∀ slot m, s.members slot = some m → (s.life m).Consistent
  passed : ∀ slot m last, s.members slot = some m → m.lastBuild = some last →
    last.toCompilation ∈ compilationsOf s.record

theorem Sound.initial (machine : Machine) (directory : Directory) (platforms : Platforms) :
    Sound (initial machine directory platforms) where
  ledger := .nil rfl
  consistent _ _ h := by cases h
  passed _ _ _ h := by cases h

theorem compilationsOf_append (record exchanges : List Exchange) :
    compilationsOf (record ++ exchanges) = compilationsOf record ++ compilationsOf exchanges :=
  List.filterMap_append

namespace Sound

variable {s : Ensemble}

/-- A member is put into a slot, while the record grows. -/
theorem put (h : Sound s) {s' : Ensemble} {slot : String} {m : Member} {rest : List Exchange}
    (hmembers : s'.members = s.members) (hrecord : s'.record = s.record ++ rest)
    (hledger : Ledger.InWorld s'.world) (hconsistent : (s'.life m).Consistent)
    (hpassed : ∀ last, m.lastBuild = some last →
      last.toCompilation ∈ compilationsOf s'.record) :
    Sound (s'.put slot m) where
  ledger := hledger
  consistent other m' hm' := by
    by_cases hother : other = slot
    · rw [put_members, if_pos hother] at hm'
      cases hm'
      exact hconsistent
    · rw [put_members, if_neg hother, hmembers] at hm'
      exact (h.consistent other m' hm').sameBuild (.rfl _) rfl
  passed other m' last hm' hlast := by
    by_cases hother : other = slot
    · rw [put_members, if_pos hother] at hm'
      cases hm'
      exact hpassed last hlast
    · rw [put_members, if_neg hother, hmembers] at hm'
      change _ ∈ compilationsOf s'.record
      rw [hrecord, compilationsOf_append]
      exact List.mem_append_left _ (h.passed other m' last hm' hlast)

/-- Nothing has happened to the members. -/
theorem unchanged (h : Sound s) {s' : Ensemble} (hmembers : s'.members = s.members)
    (hrecord : s'.record = s.record) (hledger : Ledger.InWorld s'.world) : Sound s' where
  ledger := hledger
  consistent slot m hm := by
    rw [hmembers] at hm
    exact (h.consistent slot m hm).sameBuild (.rfl _) rfl
  passed slot m last hm hlast := by
    rw [hmembers] at hm
    rw [hrecord]
    exact h.passed slot m last hm hlast

theorem on (h : Sound s) {slot : String} {m : Member} (hm : s.members slot = some m)
    (op : Life.Op) : Sound (s.settle slot ((s.life m).step openCL op)) := by
  have hrecord := (s.life m).step_record openCL op
  have hledger : Ledger.InWorld ((s.life m).step openCL op).world :=
    Life.step_preserves (fun _ _ hw => hw) Ledger.compile_preserves Ledger.run_preserves
      (s.life m) op h.ledger
  refine h.put rfl hrecord hledger ((h.consistent slot m hm).step openCL op) ?_
  intro last hlast
  change last.toCompilation ∈ compilationsOf ((s.life m).step openCL op).world.state.record
  rw [hrecord, compilationsOf_append]
  cases Life.step_effect openCL (s.life m) op with
  | kept same failure =>
      have hold := (Life.lastBuild_kept failure).symm.trans hlast
      exact List.mem_append_left _ (h.passed slot m last hm hold)
  | built plan _ _ passed success =>
      cases (Life.lastBuild_built plan.hasOptions success).symm.trans hlast
      exact List.mem_append_right _ (List.mem_filterMap.mpr ⟨_, passed, rfl⟩)

theorem withChanges (h : Sound s) {slot : String} {m : Member} (hm : s.members slot = some m)
    (target : String) (fields : List (String × Assigned)) :
    Sound (s.withChanges m target fields) := by
  unfold Ensemble.withChanges
  have hanswer := Life.withChanges_answers s.platforms m.kernel fields s.directory
  cases hcopy : (m.kernel.withChanges s.platforms fields).run.run s.directory with
  | mk copy directory =>
      rw [hcopy] at hanswer
      cases copy with
      | error e => exact h.unchanged rfl rfl h.ledger
      | ok kernel =>
          have hsame := hanswer kernel rfl
          have hconsistent := h.consistent slot m hm
          refine h.put rfl (List.append_nil _).symm h.ledger ?_ fun last hlast =>
            h.passed slot m last hm hlast
          exact hconsistent.sameBuild hsame rfl

end Sound

/-- The native objects and the backend of a machine are as they were. -/
def NativeKept (m : Machine) (w : World Machine) : Prop :=
  w.state.openCL = m.openCL ∧ w.state.objects = m.objects

theorem keep_preserves (m : Machine) (text : String) (includes : List String) :
    Action.Preserves (NativeKept m) (LoadedSource.keep text includes) :=
  .bind .state fun _ => .bind (.update fun _ h => h) fun _ => .pure _

theorem render_preserves (m : Machine) (source : String) (given : Template.Given) :
    Action.Preserves (NativeKept m) (LoadedSource.render source given) := by
  unfold LoadedSource.render
  split
  · exact .bind (.throw _) fun _ => .bind (.lift _) fun _ => by
      split
      · exact .pure _
      · exact .bind (.note fun _ h => h) fun _ => .throw _
  · refine .bind (.lift _) fun parts => ?_
    split
    · exact .pure _
    · exact .bind (.note fun _ h => h) fun _ => .throw _

theorem load_preserves (m : Machine) (source : String) (given : Option Template.Given) :
    Action.Preserves (NativeKept m) (LoadedSource.load source given) := by
  refine .bind .state fun _ => ?_
  split
  · exact .pure _
  · exact .bind (render_preserves m _ _) fun _ => keep_preserves m _ _
  · exact keep_preserves m _ _
  · exact .bind (render_preserves m _ _) fun _ => keep_preserves m _ _

namespace Sound

variable {s : Ensemble}

theorem construct (h : Sound s) (slot source : String) (given : Option Template.Given)
    (wanted : Option String) : Sound (s.construct slot source given wanted) := by
  unfold Ensemble.construct
  have hkept := load_preserves s.world.state.state source given s.world.erased ⟨rfl, rfl⟩
  cases hload : (LoadedSource.load source given).perform s.world.erased with
  | mk loaded w =>
      rw [hload] at hkept
      have hledger : Ledger.InWorld ⟨⟨w.state, s.record⟩, w.notes⟩ :=
        Ledger.congr h.ledger hkept.1 hkept.2
      dsimp only
      cases loaded with
      | error e => exact h.unchanged rfl rfl hledger
      | ok loaded =>
          dsimp only [Except.bind]
          cases hmake : Kernel.ofSource loaded wanted with
          | error e => exact h.unchanged rfl rfl hledger
          | ok make =>
              cases (Directory.current s.platforms).run.run s.directory with
              | mk device directory =>
                  cases device with
                  | error e => exact h.unchanged rfl rfl hledger
                  | ok device =>
                      have hfresh := Life.fresh_of_source hmake device directory s.platforms
                        (w := ⟨⟨w.state, s.record⟩, w.notes⟩)
                      exact h.put rfl (List.append_nil _).symm hledger hfresh.consistent
                        fun _ hlast => by cases hlast

theorem step (h : Sound s) (op : Op) : Sound (s.step op) := by
  cases op with
  | construct slot source given wanted => exact h.construct slot source given wanted
  | on slot op =>
      cases hm : s.members slot with
      | none => simpa only [Ensemble.step, hm] using h
      | some m => simpa only [Ensemble.step, hm] using h.on hm op
  | withChanges slot target fields =>
      cases hm : s.members slot with
      | none => simpa only [Ensemble.step, hm] using h
      | some m => simpa only [Ensemble.step, hm] using h.withChanges hm target fields
  | surroundings files setup => exact h.unchanged rfl rfl (Ledger.congr h.ledger rfl rfl)

theorem run (h : Sound s) (ops : List Op) : Sound (s.run ops) := by
  induction ops generalizing s with
  | nil => exact h
  | cons op rest ih => exact ih (h.step op)

end Sound

end Ensemble

end KernelLaunch
