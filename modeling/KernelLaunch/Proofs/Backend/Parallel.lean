import KernelLaunch.Proofs.Backend.Apart
import KernelLaunch.Proofs.Backend.Recording
import KernelLaunch.Proofs.Except

/-!
Backends whose results are as many as the arguments. The call itself takes results as far as
there are any, so this is proved of the OpenCL backend, each of whose steps goes over all
arguments.
-/

namespace KernelLaunch

namespace Action

variable {σ α β : Type}

theorem length_of_mapM {f : α → Action σ β} {items : List α} {w : World σ} {out : List β}
    (h : ((items.mapM f).perform w).1 = .ok out) : out.length = items.length := by
  induction items generalizing w out with
  | nil =>
      cases h
      rfl
  | cons a items ih =>
      rw [List.mapM_cons] at h
      obtain ⟨b, _, hrest⟩ := perform_bind_ok h
      obtain ⟨others, hothers, hresult⟩ := perform_bind_ok hrest
      cases hresult
      rw [List.length_cons, List.length_cons, ih hothers]

end Action

namespace Backend

variable {σ : Type}

/-- A backend whose results are as many as the arguments, if each argument has a
flag. -/
def Parallel (b : Backend σ) : Prop :=
  ∀ request w reply, request.readOnly.length = request.args.length →
    ((b.run request).perform w).1 = .ok reply → reply.results.length = request.args.length

theorem Parallel.recorded {b : Backend σ} (hb : b.Parallel) {request : RunRequest}
    {w after : World (Recorded σ)} {reply : Reply}
    (hflags : request.readOnly.length = request.args.length)
    (h : (b.recording.askRun request).perform w = (.ok reply, after)) :
    reply.results.length = request.args.length := by
  obtain ⟨_, _, hrun⟩ := Action.perform_bind_ok (congrArg Prod.fst h)
  exact hb request _ reply hflags hrun

namespace OpenCL

theorem transfer_length {request : RunRequest} {w : World Machine} {fetched : List (Option ReadBack)}
    (hflags : request.readOnly.length = request.args.length)
    (h : ((transfer request).perform w).1 = .ok fetched) : fetched.length = request.args.length := by
  obtain ⟨machine, _, h⟩ := Action.perform_bind_ok h
  split at h
  · cases h
  · obtain ⟨⟨context, queue⟩, _, h⟩ := Action.perform_bind_ok h
    obtain ⟨staged, hstaged, h⟩ := Action.perform_bind_ok h
    obtain ⟨_, _, h⟩ := Action.perform_bind_ok h
    obtain ⟨fetched, hfetched, h⟩ := Action.perform_bind_ok h
    obtain ⟨_, _, h⟩ := Action.perform_bind_ok h
    cases h
    have hstagedLength := Action.length_of_mapM hstaged
    have hfetchedLength := Action.length_of_mapM hfetched
    simp only [flagged, List.length_zip] at hstagedLength hfetchedLength
    omega

end OpenCL

theorem openCL_parallel : openCL.Parallel := by
  intro request w reply hflags h
  have hrun := congrArg Prod.fst (OpenCL.run_perform_eq request w)
  obtain ⟨fetched, hfetched, rfl⟩ := Steps.map_ok_iff.mp (hrun.symm.trans h)
  simp [OpenCL.replyFor, OpenCL.transfer_length hflags hfetched]

end Backend

end KernelLaunch
