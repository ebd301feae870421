import KernelLaunch.Kernel.Call
import KernelLaunch.Proofs.Action

/-!
Recording backends: a wrapper that appends every request, with its reply and native calls,
to a record that the wrapped backend cannot touch. The main statement is that recording is
transparent: a call has the same outcome, kernel and world with and without it.
-/

namespace KernelLaunch

/-- What passes between a backend and its callers, with the notes that the
backend leaves meanwhile. -/
inductive Exchange where
  | compile (request : Backend.CompileRequest) (answer : Except Failure (List String))
      (events : List Note)
  | run (request : Backend.RunRequest) (events : List Note)

/-- The state of a backend with a record of exchanges, in order. -/
structure Recorded (σ : Type) where
  state : σ
  record : List Exchange := []

/-- A world without the record. -/
def World.erased {σ : Type} (w : World (Recorded σ)) : World σ := ⟨w.state.state, w.notes⟩

namespace Backend

variable {σ : Type}

/-- A backend that keeps a record. A launch is recorded whatever comes of it, a
compilation with its answer. -/
def recording (b : Backend σ) : Backend (Recorded σ) where
  compile request := ExceptT.mk fun w =>
    let (answer, after) := (b.compile request).perform w.erased
    let events := after.notes.drop w.notes.length
    (answer, ⟨⟨after.state, w.state.record ++ [.compile request answer events]⟩, after.notes⟩)
  run request := ExceptT.mk fun w =>
    let (reply, after) := (b.run request).perform w.erased
    let events := after.notes.drop w.notes.length
    (reply, ⟨⟨after.state, w.state.record ++ [.run request events]⟩, after.notes⟩)

end Backend

namespace Kernel

open Host Backend

variable {σ τ : Type}

section Simulation

variable {R : World σ → World τ → Prop} {b : Backend σ} {b' : Backend τ}

theorem build_simulates (hnote : ∀ n, Action.Simulates R (Action.note n) (Action.note n))
    (hcompile : ∀ request, Action.Simulates R (b.compile request) (b'.compile request))
    (k : Kernel) (extra : Value) : Action.Simulates R (k.build b extra) (k.build b' extra) := by
  unfold build
  split
  · exact .throw _
  · refine .bind (.lift _) fun options => .bind (.lift _) fun all => ?_
    refine .bind (.bind (hnote _) fun _ => hcompile _) fun names => ?_
    split
    · exact .bind (hnote _) fun _ => .pure _
    · exact .throw _

theorem ready_simulates (hnote : ∀ n, Action.Simulates R (Action.note n) (Action.note n))
    (hcompile : ∀ request, Action.Simulates R (b.compile request) (b'.compile request))
    (k : Kernel) : Action.Simulates R (k.ready b) (k.ready b') := by
  refine .bind (.lift _) fun current => ?_
  cases current with
  | some device => exact .pure _
  | none => exact .bind (hnote _) fun _ => build_simulates hnote hcompile k .absent

theorem marshal_simulates (hnote : ∀ n, Action.Simulates R (Action.note n) (Action.note n))
    (k : Kernel) (args : List Value) (inPlace : Bool) :
    Action.Simulates R (k.marshal args inPlace) (k.marshal args inPlace) := by
  refine .bind (.lift _) fun complex => ?_
  split
  · exact .bind (hnote _) fun _ => .bind (.lift _) fun _ => .bind (.lift _) fun _ => .pure _
  · exact .bind (.lift _) fun _ => .bind (.lift _) fun _ => .pure _

theorem launch_simulates (hnote : ∀ n, Action.Simulates R (Action.note n) (Action.note n))
    (hrun : ∀ request, Action.Simulates R (b.run request) (b'.run request)) (k : Kernel)
    (device : Device) (args : List Value) (inPlace : Bool) :
    Action.Simulates R (k.launch b device args inPlace) (k.launch b' device args inPlace) := by
  refine .bind (.lift _) fun _ => .bind (marshal_simulates hnote k args inPlace) fun pair => ?_
  refine .bind (.lift _) fun flags => .bind (.bind (hnote _) fun _ => hrun _) fun reply => ?_
  exact .bind (.lift _) fun outputs => .pure _

/-- Where notes and requests come to the same for two backends, so does a call. -/
theorem call_simulates (hnote : ∀ n, Action.Simulates R (Action.note n) (Action.note n))
    (hcompile : ∀ request, Action.Simulates R (b.compile request) (b'.compile request))
    (hrun : ∀ request, Action.Simulates R (b.run request) (b'.run request)) (k : Kernel)
    (args : List Value) (inPlace : Bool) (w : World σ) (v : World τ) (h : R w v) :
    (k.call b args inPlace w).outcome = (k.call b' args inPlace v).outcome ∧
    (k.call b args inPlace w).kernel = (k.call b' args inPlace v).kernel ∧
    R (k.call b args inPlace w).world (k.call b' args inPlace v).world := by
  unfold call
  split
  · exact ⟨rfl, rfl, h⟩
  · obtain ⟨houtcome, hworld⟩ := ready_simulates hnote hcompile k w v h
    cases hready : (k.ready b).perform w with
    | mk outcome after =>
        cases hother : (k.ready b').perform v with
        | mk outcome' after' =>
            simp only [hready, hother] at houtcome hworld
            subst houtcome
            cases outcome with
            | error e => exact ⟨rfl, rfl, hworld⟩
            | ok pair =>
                obtain ⟨built, device⟩ := pair
                obtain ⟨hresult, hafter⟩ :=
                  launch_simulates hnote hrun built device args inPlace after after' hworld
                exact ⟨hresult, rfl, hafter⟩

end Simulation

/-- Recording the exchanges of a call changes neither its outcome, nor the
kernel after it, nor what the backend and a watcher see of it. -/
theorem call_recording (b : Backend σ) (k : Kernel) (args : List Value) (inPlace : Bool)
    (w : World (Recorded σ)) :
    (k.call b.recording args inPlace w).outcome = (k.call b args inPlace w.erased).outcome ∧
    (k.call b.recording args inPlace w).kernel = (k.call b args inPlace w.erased).kernel ∧
    (k.call b.recording args inPlace w).world.erased =
      (k.call b args inPlace w.erased).world := by
  refine call_simulates (R := (·.erased = ·)) ?_ ?_ ?_ k args inPlace w w.erased rfl
  · rintro n w _ rfl
    exact ⟨rfl, rfl⟩
  · rintro request w _ rfl
    exact ⟨rfl, rfl⟩
  · rintro request w _ rfl
    exact ⟨rfl, rfl⟩

section Preservation

variable {Q : World σ → Prop} {b : Backend σ}

theorem build_preserves (hnote : ∀ n, Action.Preserves Q (Action.note n))
    (hcompile : ∀ request, Action.Preserves Q (b.compile request)) (k : Kernel) (extra : Value) :
    Action.Preserves Q (k.build b extra) :=
  Action.Preserves.iff_simulates.mpr
    (build_simulates (fun n => Action.Preserves.iff_simulates.mp (hnote n))
      (fun request => Action.Preserves.iff_simulates.mp (hcompile request)) k extra)

theorem marshal_preserves (hnote : ∀ n, Action.Preserves Q (Action.note n)) (k : Kernel)
    (args : List Value) (inPlace : Bool) : Action.Preserves Q (k.marshal args inPlace) :=
  Action.Preserves.iff_simulates.mpr
    (marshal_simulates (fun n => Action.Preserves.iff_simulates.mp (hnote n)) k args inPlace)

/-- What notes and all requests to a backend preserve, a call preserves. -/
theorem call_preserves (hnote : ∀ n, Action.Preserves Q (Action.note n))
    (hcompile : ∀ request, Action.Preserves Q (b.compile request))
    (hrun : ∀ request, Action.Preserves Q (b.run request)) (k : Kernel) (args : List Value)
    (inPlace : Bool) (w : World σ) (h : Q w) : Q (k.call b args inPlace w).world :=
  (call_simulates (fun n => Action.Preserves.iff_simulates.mp (hnote n))
    (fun request => Action.Preserves.iff_simulates.mp (hcompile request))
    (fun request => Action.Preserves.iff_simulates.mp (hrun request)) k args inPlace w w
    ⟨rfl, h⟩).2.2.2

end Preservation

end Kernel

end KernelLaunch
