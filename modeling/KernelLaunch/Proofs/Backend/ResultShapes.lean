import KernelLaunch.Proofs.Backend.NativeByValue
import KernelLaunch.Proofs.Backend.Operations
import KernelLaunch.Proofs.Backend.Parallel
import KernelLaunch.Proofs.Host.Shapes

/-!
Shapes of OpenCL results. A read-only argument is its own result. The host side of any other
argument is made contiguous, which gives an array without dimensions one of extent one, and
its result keeps that shape.
-/

namespace KernelLaunch

namespace Action

variable {σ α β : Type}

/-- What two runs of one action agree on is true of each. -/
theorem Agree.self {I : σ → Prop} {x : Action σ α} {R : α → α → σ → Prop} (h : Agree I x x R)
    {w : World σ} (hI : I w.state) {a : α} (ha : (x.perform w).1 = .ok a) :
    R a a (x.perform w).2.state := by
  rcases h w w rfl hI with ⟨e, herror, _⟩ | ⟨b, b', hb, hb', _, hR⟩
  · cases herror.symm.trans ha
  · cases hb.symm.trans ha
    cases hb'.symm.trans ha
    exact hR

/-- Items that are treated in one state, which stays as it is. -/
theorem forall₂_of_mapM {f : α → Action σ β} {R : α → β → Prop} {items : List α} {s : σ}
    (step : ∀ a ∈ items, ∀ w b, w.state = s → ((f a).perform w).1 = .ok b →
      R a b ∧ ((f a).perform w).2.state = s)
    {w : World σ} (hw : w.state = s) {out : List β} (h : ((items.mapM f).perform w).1 = .ok out) :
    List.Forall₂ R items out := by
  induction items generalizing w out with
  | nil =>
      cases h
      exact .nil
  | cons a items ih =>
      rw [List.mapM_cons] at h
      obtain ⟨b, hb, hrest⟩ := perform_bind_ok h
      obtain ⟨others, hothers, hresult⟩ := perform_bind_ok hrest
      cases hresult
      obtain ⟨hfirst, hstate⟩ := step a List.mem_cons_self w b hw hb
      exact .cons hfirst (ih (fun a' hmem => step a' (List.mem_cons_of_mem a hmem)) hstate hothers)

end Action

namespace Backend.OpenCL

open Host

/-- The result for an argument: itself, or an array of the shape of its host side. -/
inductive Answers (arg : Value) : Bool → Result → Prop where
  | itself : Answers arg true ⟨arg, true⟩
  | copied {t content : Tensor} {result : Result} (collected : arg.collect = .ok t)
      (shape : content.shape = (dimensioned t).shape)
      (holds : result.value.content = .ofTensor content) : Answers arg false result

/-- An argument that has been handed over: it is only read and passed by value, or there is
a buffer of the type and the shape of its host side. -/
inductive Held (arg : Value) (readOnly : Bool) (m : Machine) : Staged → Prop where
  | value {v : Value} (unwritten : readOnly = true) : Held arg readOnly m ⟨.value v, none⟩
  | buffer {number : Nat} {side : HostSide} (side_eq : hostSide arg readOnly = .ok side)
      (form_eq : formOf m number = some (form side.tensor)) :
      Held arg readOnly m ⟨.buffer number, some side⟩

section Launches

variable {arg : Value} {readOnly : Bool} {s : Staged} {m : Machine}

theorem Handed.held {context : Nat} {notes : List Note} (h : Handed context arg readOnly notes s)
    (hstaged : StagedAlike arg arg readOnly s s m) : Held arg readOnly m s := by
  cases hstaged with
  | value v =>
      cases h with
      | value single =>
          refine .value ?_
          cases readOnly with
          | true => rfl
          | false => cases single
  | buffer hside _ _ hform => exact .buffer hside hform

theorem Held.later (h : Held arg readOnly m s) {t : Machine} (hgrows : Grows m t) :
    Held arg readOnly t s := by
  cases h with
  | value unwritten => exact .value unwritten
  | buffer hside hform => exact .buffer hside (hgrows _ _ hform)

theorem fetch_answers (queue : Nat) {w : World Machine} (hheld : Held arg readOnly w.state s)
    {fetched : Option ReadBack} (h : ((fetch queue readOnly s).perform w).1 = .ok fetched) :
    Answers arg readOnly (settled arg fetched).1 ∧
      ((fetch queue readOnly s).perform w).2.state = w.state := by
  cases hheld with
  | value unwritten =>
      subst unwritten
      cases h
      exact ⟨.itself, rfl⟩
  | @buffer number side hside hform =>
      cases readOnly with
      | true =>
          cases h
          exact ⟨.itself, rfl⟩
      | false =>
          have hfetch : fetch queue false ⟨.buffer number, some side⟩ =
              launching (Native.copy queue number side.tensor) >>= fun content =>
                pure (some ⟨side, content⟩) := rfl
          rw [hfetch] at h ⊢
          obtain ⟨content, hcopy, hresult⟩ := Action.perform_bind_ok h
          obtain ⟨_, hstate, hcontent⟩ :=
            (launching_agree (copy_agree queue number side.tensor w.state)).self rfl hcopy
          cases hresult
          have hread := hcontent hform
          have hshape := congrArg Prod.snd hread
          obtain ⟨t, ht, htensor⟩ := hostSide_collect hside
          refine ⟨.copied ht (hshape.trans (congrArg Tensor.shape htensor))
            (readBack_content hside hread), ?_⟩
          rw [Action.perform_bind_of_ok hcopy]
          exact hstate

end Launches

/-- What is handed over is held until it is read back. -/
theorem stageAll_held {context : Nat} {items : List (Value × Bool)} {w : World Machine}
    {staged : List Staged}
    (h : ((items.mapM fun (arg, readOnly) => stage context arg readOnly).perform w).1 = .ok staged) :
    staged.length = items.length ∧ ∀ pair ∈ items.zip staged, Held pair.1.1 pair.1.2
      ((items.mapM fun (arg, readOnly) => stage context arg readOnly).perform w).2.state
      pair.2 := by
  have hsame : List.Forall₂ SameItem items items :=
    List.forall₂_same.mpr fun _ _ => ⟨rfl, rfl⟩
  obtain ⟨hlength, _, hstaged⟩ := (stageAll_agree context hsame w.state).self rfl h
  obtain ⟨outcome, created, after, hperform, _, _, _, hhanded⟩ := stageAll_perform context items w
  rw [hperform] at h hstaged ⊢
  refine ⟨hlength, fun pair hpair => ?_⟩
  have hhanded := (List.forall₂_iff_zip.mp (hhanded staged h)).2 hpair
  exact hhanded.held (List.forall₂_same.mp hstaged pair hpair).2

/-- Whatever a launch is asked for, what is read back answers the arguments, one by one. -/
theorem transfer_answers {request : RunRequest} {w : World Machine}
    {fetched : List (Option ReadBack)} (h : ((transfer request).perform w).1 = .ok fetched) :
    List.Forall₂ (fun item result => Answers item.1 item.2 result) (flagged request)
      (replyFor request.args fetched).results := by
  obtain ⟨machine, _, h⟩ := Action.perform_bind_ok h
  split at h
  · cases h
  · obtain ⟨⟨context, queue⟩, _, h⟩ := Action.perform_bind_ok h
    obtain ⟨staged, hstaged, h⟩ := Action.perform_bind_ok h
    obtain ⟨_, hcall, h⟩ := Action.perform_bind_ok h
    obtain ⟨fetched, hfetched, h⟩ := Action.perform_bind_ok h
    obtain ⟨_, _, h⟩ := Action.perform_bind_ok h
    cases h
    obtain ⟨hlength, hheld⟩ := stageAll_held hstaged
    have hgrows := ((launching_agree (call_agree _ _ _)).self rfl hcall).2
    have hanswers := Action.forall₂_of_mapM
      (R := fun pair f => Answers pair.1.1 pair.1.2 (settled pair.1.1 f).1)
      (fun pair hpair v f hv hf => by
        have hlater := (hheld pair hpair).later hgrows
        rw [← hv] at hlater ⊢
        exact fetch_answers queue hlater hf) rfl hfetched
    obtain ⟨hcount, hpairs⟩ := List.forall₂_iff_zip.mp hanswers
    have hitems : flagged request =
        ((((flagged request).zip staged).zip fetched).map Prod.fst).map Prod.fst := by
      rw [List.map_fst_zip (Nat.le_of_eq hcount), List.map_fst_zip (Nat.le_of_eq hlength.symm)]
    have hresults : (replyFor request.args fetched).results =
        (((flagged request).zip staged).zip fetched).map fun p => (settled p.1.1.1 p.2).1 := by
      rw [replyFor_results]
      exact zipWith_handed _ hcount.symm
    rw [hresults]
    conv => arg 2; rw [hitems]
    rw [List.forall₂_map_left_iff, List.forall₂_map_left_iff, List.forall₂_map_right_iff]
    exact List.forall₂_same.mpr fun p hp => hpairs hp

/-- Whatever a launch is asked for, its results answer the arguments, one by one. -/
theorem run_answers {request : RunRequest} {w : World Machine} {reply : Reply}
    (h : ((run request).perform w).1 = .ok reply) :
    List.Forall₂ (fun item result => Answers item.1 item.2 result) (flagged request)
      reply.results := by
  have hrun := congrArg Prod.fst (run_perform_eq request w)
  obtain ⟨fetched, hfetched, rfl⟩ := Steps.map_ok_iff.mp (hrun.symm.trans h)
  exact transfer_answers hfetched

end Backend.OpenCL

end KernelLaunch
