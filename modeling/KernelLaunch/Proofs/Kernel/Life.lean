import KernelLaunch.Kernel.Settings
import KernelLaunch.Proofs.Kernel.Exchanges

/-!
Runs of one kernel with its device directory over an arbitrary recording backend. The record
of exchanges gives the last successful build independently of the build record inside the
kernel; the main invariant is that the two agree.
-/

namespace KernelLaunch

open Host Device Backend Kernel

variable {σ : Type}

/-- A build that has succeeded: what passed, the option string that the kernel
had at that time, and the options that were given to this build alone. -/
structure LastBuild extends Compilation where
  options : String
  extra : Value

/-- The build record that a successful build leaves in the kernel. -/
def LastBuild.record (l : LastBuild) : BuildRecord := ⟨l.request.device.index, l.options⟩

structure Life (σ : Type) where
  kernel : Kernel
  directory : Directory
  platforms : Platforms
  world : World (Recorded σ)
  /-- The last build of this kernel, or of the one it is a copy of, that has
  succeeded. -/
  lastBuild : Option LastBuild

namespace Life

inductive Op where
  /-- The platforms change. -/
  | platforms (ps : Platforms)
  | refresh
  | select (index : Value)
  | set (s : Setting) (a : Assigned)
  /-- A list of options is edited in place. -/
  | edit (l : OptionList) (options : List Value)
  | define (types names : Value)
  /-- Life goes on with a copy. -/
  | copy (fields : List (String × Assigned))
  | build (extra : Value)
  | call (args : List Value) (inPlace : Bool)

/-- A kernel asks its directory for a new version of itself. -/
def ask (l : Life σ) (query : Directory.Query Kernel) : Life σ :=
  let answer := query.run.run l.directory
  { l with directory := answer.2, kernel := answer.1.toOption.getD l.kernel }

/-- An operation. One that fails leaves what it did before. -/
def perform (b : Backend σ) (l : Life σ) : Op → Life σ
  | .platforms ps => { l with platforms := ps }
  | .refresh =>
      { l with directory := ((Directory.refresh l.platforms).run.run l.directory).2 }
  | .select index =>
      { l with directory := ((Directory.select l.platforms index).run.run l.directory).2 }
  | .set s a => l.ask (l.kernel.set l.platforms s a)
  | .edit list options => { l with kernel := l.kernel.withOptions list options }
  | .define types names =>
      { l with kernel := (l.kernel.defineTypes types names).toOption.getD l.kernel }
  | .copy fields => l.ask (l.kernel.withChanges l.platforms fields)
  | .build extra =>
      let built := (l.kernel.build b.recording extra).perform l.world
      { l with world := built.2, kernel := built.1.toOption.elim l.kernel Prod.fst }
  | .call args inPlace =>
      let called := l.kernel.call b.recording args inPlace l.world
      { l with kernel := called.kernel, world := called.world }

/-- The exchanges with the backend during an operation. -/
def exchanges (b : Backend σ) (l : Life σ) (op : Op) : List Exchange :=
  (l.perform b op).world.state.record.drop l.world.state.record.length

/-- The last build after some exchanges: one of them, if one was a success. -/
def lastBuildAfter (l : Life σ) (extra : Value) (exchanges : List Exchange) :
    Option LastBuild :=
  match exchanges.findSome? (·.compiled? l.kernel.name), l.kernel.optionString with
  | some compilation, .ok options => some ⟨compilation, options, extra⟩
  | _, _ => l.lastBuild

/-- The options that an operation has for a build alone. -/
def Op.extra : Op → Value
  | .build extra => extra
  | _ => .absent

def step (b : Backend σ) (l : Life σ) (op : Op) : Life σ :=
  { l.perform b op with lastBuild := l.lastBuildAfter op.extra (l.exchanges b op) }

def run (b : Backend σ) (l : Life σ) (ops : List Op) : Life σ := ops.foldl (step b) l

/-- The requests to compile during an operation. -/
def compilations (b : Backend σ) (l : Life σ) (op : Op) : List CompileRequest :=
  (l.exchanges b op).filterMap Exchange.compileRequest?

/-- The requests to launch during an operation. -/
def launches (b : Backend σ) (l : Life σ) (op : Op) : List RunRequest :=
  (l.exchanges b op).filterMap Exchange.runRequest?

/-- A life that begins with a kernel that has never been built. -/
structure Fresh (l : Life σ) : Prop where
  unbuilt : l.kernel.built = none
  noBuild : l.lastBuild = none

/-- Operations that are no build and no call. -/
def Op.isSetting : Op → Bool
  | .build _ | .call _ _ => false
  | _ => true

/-- Two versions of a kernel that differ in settings only. -/
structure SameBuild (k k' : Kernel) : Prop where
  interface : k'.interface = k.interface
  source : k'.source = k.source
  built : k'.built = k.built

namespace SameBuild

theorem rfl (k : Kernel) : SameBuild k k := ⟨.refl _, .refl _, .refl _⟩

theorem trans {k k' k'' : Kernel} (h : SameBuild k k') (h' : SameBuild k' k'') :
    SameBuild k k'' :=
  ⟨h'.interface.trans h.interface, h'.source.trans h.source, h'.built.trans h.built⟩

theorem withOptions (k : Kernel) (l : OptionList) (options : List Value) :
    SameBuild k (k.withOptions l options) := by
  cases l <;> exact ⟨.refl _, .refl _, .refl _⟩

end SameBuild

/-- A query all of whose answers have a property. -/
def Answers {α : Type} (P : α → Prop) (query : Directory.Query α) : Prop :=
  ∀ d a, (query.run.run d).1 = .ok a → P a

namespace Answers

variable {α β : Type} {P : α → Prop} {Q : β → Prop}

theorem pure {a : α} (h : P a) : Answers P (Pure.pure a) := by
  intro d a' heq
  cases heq
  exact h

theorem throw (e : Failure) : Answers P (throwThe Failure e) := fun _ _ heq => by cases heq

theorem bind {query : Directory.Query α} {next : α → Directory.Query β}
    (hquery : Answers P query) (hnext : ∀ a, P a → Answers Q (next a)) :
    Answers Q (query >>= next) := by
  intro d b heq
  cases h : query.run.run d with
  | mk outcome after =>
      have hrun : query d = (outcome, after) := h
      cases outcome with
      | error e =>
          simp only [Bind.bind, ExceptT.bind, ExceptT.mk, ExceptT.run, StateT.bind, StateT.run,
            ExceptT.bindCont, hrun] at heq
          cases heq
      | ok a =>
          refine hnext a (hquery d a (by rw [h])) after b ?_
          simpa [Bind.bind, ExceptT.bind, ExceptT.mk, ExceptT.run, StateT.bind, StateT.run,
            ExceptT.bindCont, hrun] using heq

/-- An answer that is computed without a look at the directory. -/
theorem lift {r : Except Failure α} (h : ∀ a, r = .ok a → P a) : Answers P (liftM r) :=
  fun _ a heq => h a heq

theorem any (query : Directory.Query α) : Answers (fun _ => True) query :=
  fun _ _ _ => trivial

theorem foldlM {f : α → β → Directory.Query α} (h : ∀ a b, P a → Answers P (f a b)) (bs : List β)
    {a : α} (ha : P a) : Answers P (bs.foldlM f a) := by
  induction bs generalizing a with
  | nil => exact .pure ha
  | cons b bs ih =>
      rw [List.foldlM_cons]
      exact .bind (h a b ha) fun _ => ih

end Answers

theorem set_answers (platforms : Platforms) (k : Kernel) (s : Setting) (a : Assigned) :
    Answers (SameBuild k) (k.set platforms s a) := by
  unfold Kernel.set
  split
  · exact .bind (.any _) fun _ _ => .pure ⟨rfl, rfl, rfl⟩
  · exact .bind (.any _) fun _ _ => .pure ⟨rfl, rfl, rfl⟩
  · exact .bind (.any _) fun _ _ => .pure (.withOptions k _ _)
  · exact .throw _

theorem withChanges_answers (platforms : Platforms) (k : Kernel)
    (fields : List (String × Assigned)) :
    Answers (SameBuild k) (k.withChanges platforms fields) := by
  refine .foldlM (fun k' (field, a) h => ?_) _ (.rfl k)
  dsimp only
  split
  · intro d k'' heq
    exact h.trans (set_answers platforms k' _ _ d k'' heq)
  · exact .throw _

theorem ask_sameBuild (l : Life σ) {query : Directory.Query Kernel}
    (h : Answers (SameBuild l.kernel) query) : SameBuild l.kernel (l.ask query).kernel := by
  have hanswer := h l.directory
  change SameBuild l.kernel ((query.run.run l.directory).1.toOption.getD l.kernel)
  cases houtcome : (query.run.run l.directory).1 with
  | error e => exact .rfl _
  | ok k => exact hanswer k houtcome

/-- An operation on settings asks nothing of the backend and leaves the record
of the last build as it is. -/
theorem perform_setting (b : Backend σ) (l : Life σ) {op : Op} (h : op.isSetting = true) :
    (l.perform b op).world = l.world ∧ SameBuild l.kernel (l.perform b op).kernel := by
  cases op with
  | build extra => cases h
  | call args inPlace => cases h
  | platforms ps => exact ⟨rfl, .rfl _⟩
  | refresh => exact ⟨rfl, .rfl _⟩
  | select index => exact ⟨rfl, .rfl _⟩
  | set s a => exact ⟨rfl, l.ask_sameBuild (set_answers l.platforms l.kernel s a)⟩
  | edit list options => exact ⟨rfl, .withOptions _ _ _⟩
  | define types names =>
      refine ⟨rfl, ?_⟩
      change SameBuild l.kernel ((l.kernel.defineTypes types names).toOption.getD l.kernel)
      unfold defineTypes
      cases Signature.override l.kernel.parameters types names with
      | error e => exact .rfl _
      | ok parameters => exact ⟨rfl, rfl, rfl⟩
  | copy fields => exact ⟨rfl, l.ask_sameBuild (withChanges_answers l.platforms l.kernel fields)⟩

theorem exchanges_eq (b : Backend σ) (l : Life σ) (op : Op) {exchanges : List Exchange}
    (h : (l.perform b op).world.state.record = l.world.state.record ++ exchanges) :
    l.exchanges b op = exchanges := by
  rw [Life.exchanges, h, List.drop_left]

theorem exchanges_setting (b : Backend σ) (l : Life σ) {op : Op} (h : op.isSetting = true) :
    l.exchanges b op = [] := by
  apply exchanges_eq
  rw [(perform_setting b l h).1, List.append_nil]

theorem step_build (b : Backend σ) (l : Life σ) (extra : Value) :
    Building l.kernel extra (l.step b (.build extra)).kernel (l.exchanges b (.build extra)) := by
  obtain ⟨exchanges, hrecord, houtcome⟩ := build_record b l.kernel extra l.world
  rw [exchanges_eq b l (.build extra) hrecord]
  change Building l.kernel extra
    (((l.kernel.build b.recording extra).perform l.world).1.toOption.elim l.kernel Prod.fst) exchanges
  cases hbuild : ((l.kernel.build b.recording extra).perform l.world).1 with
  | error e =>
      rw [hbuild] at houtcome
      exact houtcome
  | ok pair =>
      rw [hbuild] at houtcome
      exact houtcome.1

theorem step_call (b : Backend σ) (l : Life σ) (args : List Value) (inPlace : Bool) :
    Calling l.kernel args (l.step b (.call args inPlace)).kernel
      (l.exchanges b (.call args inPlace)) := by
  obtain ⟨exchanges, hrecord, hcalling⟩ := call_record b l.kernel args inPlace l.world
  rw [exchanges_eq b l (.call args inPlace) hrecord]
  exact hcalling

/-- What an operation does to the record of a kernel, and which compilation that
passes meanwhile is a success. -/
inductive Effect (k : Kernel) (extra : Value) (k' : Kernel) (exchanges : List Exchange) :
    Prop where
  | kept (same : SameBuild k k')
      (failure : exchanges.findSome? (·.compiled? k.name) = none) : Effect k extra k' exchanges
  | built {device : Device} {options all : String} {names : List String} {events : List Note}
      (plan : Planned k extra device options all) (present : k.name ∈ names)
      (recorded : k' = k.recorded device options)
      (passed : .compile ⟨device, k.source, all⟩ (.ok names) events ∈ exchanges)
      (success : exchanges.findSome? (·.compiled? k.name) =
        some ⟨⟨device, k.source, all⟩, names, events⟩) :
      Effect k extra k' exchanges

theorem Effect.of_building {k k' : Kernel} {extra : Value} {exchanges launch : List Exchange}
    (building : Building k extra k' exchanges)
    (hlaunch : launch.findSome? (·.compiled? k.name) = none) :
    Effect k extra k' (exchanges ++ launch) := by
  cases building with
  | refused => exact .kept (.rfl k) hlaunch
  | @failed device options all answer events plan failure =>
      refine .kept (.rfl k) ?_
      have hnone : (Exchange.compile ⟨device, k.source, all⟩ answer events).compiled? k.name =
          none := by
        cases answer with
        | error e => rfl
        | ok names => simp [Exchange.compiled?, Exchange.compilation?, failure names rfl]
      rw [List.singleton_append, List.findSome?_cons, hnone]
      exact hlaunch
  | built plan present =>
      refine .built plan present rfl (List.mem_append_left _ (List.mem_singleton_self _)) ?_
      simp [Exchange.compiled?, Exchange.compilation?, present]

theorem launching_findSome? {k : Kernel} {launch : List Exchange} (h : Launching k launch)
    (name : String) : launch.findSome? (·.compiled? name) = none := by
  obtain rfl | ⟨device, passed, flags, events, _, rfl⟩ := h <;> rfl

theorem Effect.of_calling {k k' : Kernel} {args : List Value} {exchanges : List Exchange}
    (calling : Calling k args k' exchanges) : Effect k .absent k' exchanges := by
  cases calling with
  | miscounted => exact .kept (.rfl k) rfl
  | unclear => exact .kept (.rfl k) rfl
  | current _ launching => exact .kept (.rfl k) (launching_findSome? launching k.name)
  | stale _ building launching => exact .of_building building (launching_findSome? launching k.name)

theorem step_effect (b : Backend σ) (l : Life σ) (op : Op) :
    Effect l.kernel op.extra (l.step b op).kernel (l.exchanges b op) := by
  by_cases hsetting : op.isSetting = true
  · refine .kept (perform_setting b l hsetting).2 ?_
    rw [exchanges_setting b l hsetting]
    rfl
  · cases op with
    | build extra =>
        have heffect := Effect.of_building (step_build b l extra) List.findSome?_nil
        rwa [List.append_nil] at heffect
    | call args inPlace => exact .of_calling (step_call b l args inPlace)
    | _ => exact absurd rfl hsetting

theorem lastBuild_kept {b : Backend σ} {l : Life σ} {op : Op}
    (h : (l.exchanges b op).findSome? (·.compiled? l.kernel.name) = none) :
    (l.step b op).lastBuild = l.lastBuild := by
  change l.lastBuildAfter op.extra (l.exchanges b op) = l.lastBuild
  simp only [lastBuildAfter, h]

theorem lastBuild_built {b : Backend σ} {l : Life σ} {op : Op} {compilation : Compilation}
    {options : String} (hoptions : l.kernel.optionString = .ok options)
    (h : (l.exchanges b op).findSome? (·.compiled? l.kernel.name) = some compilation) :
    (l.step b op).lastBuild = some ⟨compilation, options, op.extra⟩ := by
  change l.lastBuildAfter op.extra (l.exchanges b op) = _
  simp only [lastBuildAfter, h, hoptions]

/-- A build is one of a kernel: it has read the source of the kernel, with the
options that it says, and has found the kernel in it. -/
structure BuildOf (k : Kernel) (last : LastBuild) : Prop where
  source : last.request.source = k.source
  options : buildOptions last.options last.extra = .ok last.request.options
  present : k.name ∈ last.names

/-- The record of a kernel agrees with the last build that has succeeded. -/
structure Consistent (l : Life σ) : Prop where
  record : l.kernel.built = l.lastBuild.map LastBuild.record
  build : ∀ last, l.lastBuild = some last → BuildOf l.kernel last

theorem Fresh.consistent {l : Life σ} (h : l.Fresh) : l.Consistent where
  record := by rw [h.unbuilt, h.noBuild]; rfl
  build := by simp [h.noBuild]

/-- Settings do not matter. -/
theorem Consistent.sameBuild {l l' : Life σ} (h : l.Consistent)
    (same : SameBuild l.kernel l'.kernel) (hlast : l'.lastBuild = l.lastBuild) :
    l'.Consistent where
  record := by
    rw [hlast, same.built]
    exact h.record
  build last hmem := by
    obtain ⟨hsource, hoptions, hpresent⟩ := h.build last (hlast ▸ hmem)
    refine ⟨hsource.trans same.source.symm, hoptions, ?_⟩
    rw [Kernel.name, same.interface]
    exact hpresent

theorem Consistent.step {l : Life σ} (h : l.Consistent) (b : Backend σ) (op : Op) :
    (l.step b op).Consistent := by
  cases step_effect b l op with
  | kept same failure => exact h.sameBuild same (lastBuild_kept failure)
  | built plan present recorded _ success =>
      have hlast := lastBuild_built plan.hasOptions success
      constructor
      · rw [hlast, recorded]
        rfl
      · intro last hmem
        cases hlast.symm.trans hmem
        rw [recorded]
        exact ⟨rfl, plan.allOptions, present⟩

/-- The build record agrees with the last successful build after any operations. -/
theorem Consistent.run {l : Life σ} (h : l.Consistent) (b : Backend σ) (ops : List Op) :
    (l.run b ops).Consistent := by
  induction ops generalizing l with
  | nil => exact h
  | cons op rest ih => exact ih (h.step b op)

/-- A kernel that counts as built has had a build that says so. -/
theorem Consistent.lastBuild_of_built {l : Life σ} (h : l.Consistent) {device : Device}
    (hbuilt : l.kernel.builtFor? = .ok (some device)) :
    l.kernel.device = some device ∧ ∃ last, l.lastBuild = some last ∧
      l.kernel.optionString = .ok last.options ∧ last.request.device.index = device.index := by
  obtain ⟨hdevice, options, hoptions, hrecord⟩ := builtFor?_eq_some_iff.mp hbuilt
  refine ⟨hdevice, ?_⟩
  rw [h.record] at hrecord
  obtain ⟨last, hlast, hsame⟩ := Option.map_eq_some_iff.mp hrecord
  refine ⟨last, hlast, ?_, congrArg BuildRecord.index hsame⟩
  rw [hoptions]
  exact congrArg Except.ok (congrArg BuildRecord.options hsame).symm

section Preservation

variable {Q : World (Recorded σ) → Prop} {b : Backend σ}

/-- What notes and all requests to a backend preserve, an operation preserves. -/
theorem step_preserves (hnote : ∀ n, Action.Preserves Q (Action.note n))
    (hcompile : ∀ request, Action.Preserves Q (b.recording.compile request))
    (hrun : ∀ request, Action.Preserves Q (b.recording.run request)) (l : Life σ) (op : Op)
    (h : Q l.world) : Q (l.step b op).world := by
  by_cases hsetting : op.isSetting = true
  · change Q (l.perform b op).world
    rw [(perform_setting b l hsetting).1]
    exact h
  · cases op with
    | build extra => exact build_preserves hnote hcompile l.kernel extra l.world h
    | call args inPlace => exact call_preserves hnote hcompile hrun l.kernel args inPlace l.world h
    | _ => exact absurd rfl hsetting

/-- The record only grows. -/
theorem step_record (b : Backend σ) (l : Life σ) (op : Op) :
    (l.step b op).world.state.record = l.world.state.record ++ l.exchanges b op := by
  have hgrows : l.world.state.record <+: (l.step b op).world.state.record := by
    refine step_preserves (Q := (l.world.state.record <+: ·.state.record)) (fun _ _ h => h)
      (fun request w h => ?_) (fun request w h => ?_) l op (List.prefix_refl _)
    · exact h.trans (List.prefix_append _ _)
    · exact h.trans (List.prefix_append _ _)
  obtain ⟨rest, hrest⟩ := hgrows
  rw [exchanges_eq b l op hrest.symm, ← hrest]

end Preservation

end Life

end KernelLaunch
