import KernelLaunch.Backend.Loopback
import KernelLaunch.Proofs.Backend.Operations
import KernelLaunch.Proofs.Kernel.Commons

/-!
Both backends compile deterministically: while files and setup stay as they are, which
kernels a compilation reports depends on the request alone, and no request changes files or
setup.
-/

namespace KernelLaunch.Backend

open Host Kernel KernelLaunch.Action

/-- A machine with these files and this setup, whatever native objects there are. -/
def Surrounded (files : Files) (setup : Setup) (w : World Machine) : Prop :=
  w.state.files = files ∧ w.state.setup = setup

namespace Surrounded

variable {files : Files} {setup : Setup}

theorem note (n : Note) : Preserves (Surrounded files setup) (Action.note n) :=
  .note fun _ h => h

theorem updateObjects (f : Native.Objects → Native.Objects) :
    Preserves (Surrounded files setup) (Native.updateObjects f) :=
  .update fun _ h => h

theorem read (place : Place) : Preserves (Surrounded files setup) (Machine.read place) := by
  refine .bind .state fun m => ?_
  split
  · exact .pure _
  · exact .throw _

theorem launching {α : Type} {operation : Action Machine (Except String α)}
    (h : Preserves (Surrounded files setup) operation) :
    Preserves (Surrounded files setup) (OpenCL.launching operation) := by
  refine .bind h fun outcome => ?_
  split
  · exact .pure _
  · exact .throw _

theorem createContext (device : Device.Native) :
    Preserves (Surrounded files setup) (Native.createContext device) :=
  .bind .state fun _ => .bind (updateObjects _) fun _ => .bind (note _) fun _ => .pure _

theorem createQueue (context : Nat) :
    Preserves (Surrounded files setup) (Native.createQueue context) :=
  .bind .state fun _ => .bind (updateObjects _) fun _ => .bind (note _) fun _ => .pure _

theorem build (context : Nat) (source options : String) :
    Preserves (Surrounded files setup) (Native.build context source options) := by
  refine .bind .state fun _ => .bind (updateObjects _) fun _ => .bind (note _) fun _ =>
    .bind (note _) fun _ => .bind .state fun _ => ?_
  split
  · exact .pure _
  · exact .pure _

theorem createBuffer (context : Nat) (access : Native.Access) (content : Tensor) :
    Preserves (Surrounded files setup) (Native.createBuffer context access content) := by
  refine .bind .state fun _ => .bind .state fun _ => ?_
  split
  · exact .pure _
  · exact .bind (updateObjects _) fun _ => .bind (note _) fun _ => .pure _

theorem call (p : Native.Program) (c : Native.Call) :
    Preserves (Surrounded files setup) (Native.call p c) := by
  refine .bind (note _) fun _ => .bind .state fun _ => ?_
  dsimp only
  split
  · exact .pure _
  · exact .bind (updateObjects _) fun _ => .pure _

theorem copy (queue buffer : Nat) (missing : Tensor) :
    Preserves (Surrounded files setup) (Native.copy queue buffer missing) := by
  refine .bind (note _) fun _ => .bind .state fun _ => ?_
  split
  · exact .pure _
  · exact .bind .state fun _ => .pure _

theorem queueFor (device : Device) :
    Preserves (Surrounded files setup) (OpenCL.queueFor device) := by
  refine .bind .state fun _ => ?_
  split
  · exact .pure _
  · exact .bind (createContext _) fun _ => .bind (createQueue _) fun _ =>
      .bind (.update fun _ h => h) fun _ => .pure _

theorem stage (context : Nat) (arg : Value) (readOnly : Bool) :
    Preserves (Surrounded files setup) (OpenCL.stage context arg readOnly) := by
  refine .bind (.lift _) fun byValue => ?_
  split
  · exact .bind (.lift _) fun _ => .pure _
  · exact .bind (.lift _) fun _ => .bind (launching (createBuffer _ _ _)) fun _ => .pure _

theorem fetch (queue : Nat) (readOnly : Bool) (staged : OpenCL.Staged) :
    Preserves (Surrounded files setup) (OpenCL.fetch queue readOnly staged) := by
  unfold OpenCL.fetch
  split
  · split
    · exact .pure _
    · exact .bind (launching (copy _ _ _)) fun _ => .pure _
  · exact .pure _

theorem compile (request : CompileRequest) :
    Preserves (Surrounded files setup) (OpenCL.compile request) := by
  refine .bind (read _) fun _ => .bind (queueFor _) fun _ => .bind (build _ _ _) fun built => ?_
  split
  · exact .bind (note _) fun _ => .throw _
  · exact .bind .state fun _ => .bind (.update fun _ h => h) fun _ => .pure _

theorem transfer (request : RunRequest) :
    Preserves (Surrounded files setup) (OpenCL.transfer request) := by
  refine .bind .state fun _ => ?_
  split
  · exact .throw _
  · exact .bind (queueFor _) fun _ => .bind (.mapM (fun _ => stage _ _ _) _) fun _ =>
      .bind (launching (call _ _)) fun _ => .bind (.mapM (fun _ => fetch _ _ _) _) fun _ =>
        .bind (note _) fun _ => .pure _

theorem run (request : RunRequest) :
    Preserves (Surrounded files setup) (OpenCL.run request) :=
  .bind (.bind (transfer request) fun _ => .pure _) fun _ => .pure _

end Surrounded

/-- What a source is found to hold. -/
def compiled (files : Files) (setup : Setup) (request : CompileRequest) :
    Except Failure (List String) :=
  match files.read? request.source with
  | some text => .ok (setup.kernelsOf text)
  | none => .error .missingFile

/-- With native objects, the source is read first. -/
def OpenCL.answer (files : Files) (setup : Setup) (request : CompileRequest) :
    Except Failure (List String) := do
  let names ← compiled files setup request
  match setup.buildError with
  | some why => throw (.kernel (.build why))
  | none => return names

/-- Without them, a build that fails reads nothing. -/
def Loopback.answer (files : Files) (setup : Setup) (request : CompileRequest) :
    Except Failure (List String) :=
  match setup.buildError with
  | some why => .error (.kernel (.build why))
  | none => compiled files setup request

theorem openCL_settled (files : Files) (setup : Setup) :
    Settled openCL (Surrounded files setup) (OpenCL.answer files setup) where
  note := Surrounded.note
  compile := Surrounded.compile
  run := Surrounded.run
  answers request w hw := by
    obtain ⟨rfl, rfl⟩ := hw
    unfold OpenCL.answer compiled
    simp only [openCL, OpenCL.compile, Machine.read, perform_bind, perform_state]
    cases hread : w.state.files.read? request.source with
    | none => rfl
    | some text =>
        obtain ⟨opened, opening, before, hopen, hopens⟩ := OpenCL.queueFor_perform request.device w
        simp only [perform_pure, hopen, Native.build, Native.updateObjects, perform_bind,
          perform_state, perform_update, perform_note, hopens.setup_eq]
        cases hbroken : w.state.setup.buildError with
        | some why => rfl
        | none => rfl

theorem loopback_settled (files : Files) (setup : Setup) :
    Settled loopback (Surrounded files setup) (Loopback.answer files setup) where
  note := Surrounded.note
  compile request := by
    refine .bind .state fun _ => ?_
    dsimp only
    split
    · exact .throw _
    · exact .bind (Surrounded.read _) fun _ => .pure _
  run request := by
    refine .bind .state fun m => ?_
    dsimp only
    split
    · exact .throw _
    · split
      · exact .bind (.lift _) fun _ => .pure _
      · exact .bind (.pure _) fun _ => .pure _
  answers request w hw := by
    obtain ⟨rfl, rfl⟩ := hw
    unfold Loopback.answer compiled
    simp only [loopback, Machine.read, perform_bind, perform_state]
    cases hbroken : w.state.setup.buildError with
    | some why => rfl
    | none =>
        simp only [perform_bind, perform_state]
        cases hread : w.state.files.read? request.source with
        | none => rfl
        | some text => rfl

end KernelLaunch.Backend
