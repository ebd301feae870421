import KernelLaunch.Proofs.Backend.Recording
import KernelLaunch.Proofs.Kernel.Build

/-!
Case analysis of launches and calls, in the manner of that of builds.
-/

namespace KernelLaunch.Kernel

open Host Text Backend

variable {σ : Type}

/-- The launch request of a call with given prepared arguments. -/
def runRequest (k : Kernel) (device : Device) (passed : List Passed) (flags : List Bool) :
    RunRequest :=
  ⟨device, k.name, k.geometry.launchVectors.1, k.geometry.launchVectors.2,
    passed.map (·.value), flags⟩

/-- The outcomes of the launch of a built kernel. -/
inductive LaunchRun (b : Backend σ) (k : Kernel) (device : Device) (args : List Value)
    (inPlace : Bool) (w : World σ) : Except Failure CallResult × World σ → Prop where
  /-- The block does not fit, or the arguments cannot be passed on. -/
  | refused {e : Failure} {after : World σ} (untouched : after.state = w.state) :
      LaunchRun b k device args inPlace w (.error e, after)
  | asked {complex flags : List Bool} {passed : List Passed} {before : World σ}
      {outcome : Except Failure CallResult} {after : World σ}
      (fits : checkBlock k.geometry.block device = .ok ())
      (marshalled : (k.marshal args inPlace).perform w = (.ok (complex, passed), before))
      (untouched : before.state = w.state)
      (flagged : readOnlyAll k.parameters (passed.map (·.value)) = .ok flags)
      (ran : ((b.askRun (k.runRequest device passed flags)).perform before).2 = after) :
      LaunchRun b k device args inPlace w (outcome, after)

theorem launch_run (b : Backend σ) (k : Kernel) (device : Device) (args : List Value)
    (inPlace : Bool) (w : World σ) :
    LaunchRun b k device args inPlace w ((k.launch b device args inPlace).perform w) := by
  unfold launch
  simp only [Action.perform_bind, Action.perform_lift]
  cases hfits : checkBlock k.geometry.block device with
  | error e => exact .refused rfl
  | ok fits =>
      have hstate : ((k.marshal args inPlace).perform w).2.state = w.state :=
        marshal_preserves (Q := (·.state = w.state)) (fun _ _ h => h) k args inPlace w rfl
      cases hmarshal : (k.marshal args inPlace).perform w with
      | mk marshalled before =>
          simp only [hmarshal] at hstate ⊢
          cases marshalled with
          | error e => exact .refused hstate
          | ok pair =>
              obtain ⟨complex, passed⟩ := pair
              cases hflags : readOnlyAll k.parameters (passed.map (·.value)) with
              | error e =>
                  simp only [hflags]
                  exact .refused hstate
              | ok flags =>
                  cases hrun : (b.askRun (k.runRequest device passed flags)).perform before with
                  | mk reply after =>
                      have hafter := congrArg Prod.snd hrun
                      unfold runRequest at hrun
                      simp only [hflags, hrun]
                      cases reply with
                      | error e => exact .asked hfits hmarshal hstate hflags hafter
                      | ok reply =>
                          dsimp only
                          cases outputs k.parameters complex passed reply.results <;>
                            exact .asked hfits hmarshal hstate hflags hafter

/-- The outcomes of a call. The kernel after it is the one before, or that one with a new
build record. -/
inductive CallRun (b : Backend σ) (k : Kernel) (args : List Value) (inPlace : Bool)
    (w : World σ) : Called σ → Prop where
  | miscounted {e : Failure} (count : args.length ≠ k.parameters.length) :
      CallRun b k args inPlace w ⟨.error e, k, w⟩
  | unready {e : Failure} {after : World σ} (count : args.length = k.parameters.length)
      (ready : (k.ready b).perform w = (.error e, after)) :
      CallRun b k args inPlace w ⟨.error e, k, after⟩
  | launched {built : Kernel} {device : Device} {before after : World σ}
      {outcome : Except Failure CallResult} (count : args.length = k.parameters.length)
      (ready : (k.ready b).perform w = (.ok (built, device), before))
      (run : LaunchRun b built device args inPlace before (outcome, after)) :
      CallRun b k args inPlace w ⟨outcome, built, after⟩

theorem call_run (b : Backend σ) (k : Kernel) (args : List Value) (inPlace : Bool)
    (w : World σ) : CallRun b k args inPlace w (k.call b args inPlace w) := by
  unfold call
  split
  · next hcount => exact .miscounted hcount
  · next hcount =>
    have hcount : args.length = k.parameters.length := Decidable.not_not.mp hcount
    split
    · next e after hready => exact .unready hcount hready
    · next built device before hready =>
      exact .launched hcount hready (launch_run b built device args inPlace before)

end KernelLaunch.Kernel
