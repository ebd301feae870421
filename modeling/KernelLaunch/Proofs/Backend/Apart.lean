import KernelLaunch.Backend.OpenCL
import KernelLaunch.Proofs.Action

/-!
Copying buffers back into host memory. A write through one argument is seen through every
argument that overlaps it, and through no other. So for arguments in separate memory `run`
settles each argument on its own, and for overlapping ones a result lasts until a later copy
back overwrites it.
-/

namespace KernelLaunch.Host

theorem View.Overlaps.symm {v w : View} (h : v.Overlaps w) : w.Overlaps v := by
  obtain ⟨hstorage, cell, hv, hw⟩ := h
  exact ⟨hstorage.symm, cell, hw, hv⟩

theorem Reference.Overlaps.symm {r q : Reference} (h : r.Overlaps q) : q.Overlaps r := by
  cases r with
  | atom | list => exact h.elim
  | view v =>
      cases q with
      | atom | list => exact h.elim
      | view w => exact View.Overlaps.symm h

end KernelLaunch.Host

namespace KernelLaunch.Backend.OpenCL

open Host

/-- The copy back goes into the memory of the argument. -/
def InPlace (fetched : Option ReadBack) : Prop :=
  ∃ b, fetched = some b ∧ b.host.sharing ≠ .separate

/-- An argument in separate memory and its result, after the copy back from its buffer. -/
def readBack (arg : Value) (b : ReadBack) : Result × Value :=
  match b.host.sharing, arg with
  | .same, .array a => (⟨.array (a.refill b.content), true⟩, .array (a.refill b.content))
  | .view, .array a => (⟨.array (a.refill b.content).flat, false⟩, .array (a.refill b.content))
  | _, _ => (⟨.ofTensor b.content, false⟩, arg)

/-- An argument that shares no memory and the result in its place, after a launch. -/
def settled (arg : Value) : Option ReadBack → Result × Value
  | none => (⟨arg, true⟩, arg)
  | some b => readBack arg b

/-- The reply to a launch with arguments in separate memory. -/
def replyFor (args : List Value) (fetched : List (Option ReadBack)) : Reply :=
  let out := List.zipWith settled args fetched
  ⟨out.map (·.1), out.map (·.2) ++ args.drop out.length⟩

theorem replyFor_results (args : List Value) (fetched : List (Option ReadBack)) :
    (replyFor args fetched).results = List.zipWith (fun arg f => (settled arg f).1) args fetched :=
  List.map_zipWith

/-- Each argument goes with what has been read back for it, as long as there is something for
each that has been handed over. -/
theorem zipWith_handed {α : Type} (f : Value → Option ReadBack → α) {args : List Value}
    {flags : List Bool} {staged : List Staged} {fetched : List (Option ReadBack)}
    (h : fetched.length = ((args.zip flags).zip staged).length) :
    List.zipWith f args fetched =
      (((args.zip flags).zip staged).zip fetched).map fun p => f p.1.1.1 p.2 := by
  induction args generalizing flags staged fetched with
  | nil => rfl
  | cons arg args ih =>
      cases fetched with
      | nil => simp
      | cons first fetched =>
          cases flags with
          | nil => cases h
          | cons readOnly flags =>
              cases staged with
              | nil => cases h
              | cons s staged => exact congrArg _ (ih (Nat.succ.inj h))

section Memory

variable {m : Memory}

/-- Frame rule: settling an argument leaves memory that it does not overlap as it is. -/
theorem settle_frame {r : Reference} {w : View} {fetched : Option ReadBack}
    (h : InPlace fetched → ¬ r.Overlaps (.view w)) :
    w.array (settle r fetched m).2 = w.array m := by
  cases fetched with
  | none => rfl
  | some b =>
      obtain ⟨⟨tensor, sharing⟩, content⟩ := b
      cases r with
      | atom | list => cases sharing <;> rfl
      | view v =>
          cases sharing with
          | same => exact View.array_write_of_apart (h ⟨_, rfl, nofun⟩)
          | view => exact View.array_write_of_apart (h ⟨_, rfl, nofun⟩)
          | separate => rfl

theorem settleAll_frame {w : View} {rs : List Reference} {fs : List (Option ReadBack)}
    (h : ∀ p ∈ rs.zip fs, InPlace p.2 → ¬ p.1.Overlaps (.view w)) :
    w.array (settleAll rs fs m).2 = w.array m := by
  induction rs generalizing fs m with
  | nil => rfl
  | cons r rs ih =>
      cases fs with
      | nil => rfl
      | cons f fs =>
          have hfirst := h (r, f) List.mem_cons_self
          exact (ih fun p hp => h p (List.mem_cons_of_mem _ hp)).trans (settle_frame hfirst)

/-- A reference stays as it is if nothing is read back into its memory. -/
theorem value_settle {r q : Reference} {f : Option ReadBack}
    (h : InPlace f → ¬ r.Overlaps q) : q.value (settle r f m).2 = q.value m := by
  cases q with
  | atom | list => rfl
  | view w => exact congrArg Value.array (settle_frame h)

theorem value_settleAll {q : Reference} {rs : List Reference} {fs : List (Option ReadBack)}
    (h : ∀ p ∈ rs.zip fs, InPlace p.2 → ¬ p.1.Overlaps q) :
    q.value (settleAll rs fs m).2 = q.value m := by
  cases q with
  | atom | list => rfl
  | view w => exact congrArg Value.array (settleAll_frame h)

/-- An argument and the result in its place, as soon as the argument has been settled. -/
theorem settle_settled (r : Reference) (f : Option ReadBack) (m : Memory) :
    ((settle r f m).1.result (settle r f m).2, r.value (settle r f m).2) =
      settled (r.value m) f := by
  cases f with
  | none => rfl
  | some b =>
      obtain ⟨⟨tensor, sharing⟩, content⟩ := b
      cases r with
      | atom | list => cases sharing <;> rfl
      | view v =>
          have hwrite := View.array_write v content m
          cases sharing with
          | separate => rfl
          | same =>
              change ((⟨.array (v.array (v.write content m)), true⟩ : Result), _) = _
              rw [hwrite]
              exact congrArg (Prod.mk _) (congrArg Value.array hwrite)
          | view =>
              change ((⟨.array (v.flat.array (v.write content m)), false⟩ : Result), _) = _
              rw [View.array_flat, hwrite]
              exact congrArg (Prod.mk _) (congrArg Value.array hwrite)

/-- An answer stays as it is if nothing is read back later into the memory of its argument. -/
theorem result_settleAll {r : Reference} {f : Option ReadBack} {m₀ : Memory}
    {rs : List Reference} {fs : List (Option ReadBack)}
    (h : ∀ p ∈ rs.zip fs, InPlace p.2 → ¬ p.1.Overlaps r) :
    (settle r f m₀).1.result (settleAll rs fs m).2 = (settle r f m₀).1.result m := by
  have hvalue := value_settleAll (m := m) h
  cases f with
  | none => exact congrArg (Result.mk · true) hvalue
  | some b =>
      obtain ⟨⟨tensor, sharing⟩, content⟩ := b
      cases r with
      | atom | list => cases sharing <;> rfl
      | view v =>
          cases sharing with
          | separate => rfl
          | same => exact congrArg (Result.mk · true) hvalue
          | view =>
              change (⟨.array (v.flat.array _), false⟩ : Result) = ⟨.array (v.flat.array _), false⟩
              rw [View.array_flat, View.array_flat, settleAll_frame h]

/-- References in separate memory are settled one by one. -/
theorem settleAll_apart {rs : List Reference} (h : rs.Pairwise fun r q => ¬ r.Overlaps q)
    (fs : List (Option ReadBack)) (m : Memory) :
    (⟨(settleAll rs fs m).1.map (·.result (settleAll rs fs m).2),
      rs.map (·.value (settleAll rs fs m).2)⟩ : Reply) = replyFor (rs.map (·.value m)) fs := by
  induction h generalizing fs m with
  | nil => rfl
  | @cons r rs hfirst hrest ih =>
      cases fs with
      | nil => rfl
      | cons f fs =>
          have hlater : ∀ p ∈ rs.zip fs, InPlace p.2 → ¬ p.1.Overlaps r :=
            fun p hp _ hoverlaps => hfirst p.1 (List.of_mem_zip hp).1 hoverlaps.symm
          have hrests : rs.map (·.value (settle r f m).2) = rs.map (·.value m) :=
            List.map_congr_left fun q hq => value_settle fun _ => hfirst q hq
          have hsettled := settle_settled r f m
          have hothers := ih fs (settle r f m).2
          rw [hrests] at hothers
          obtain ⟨hresults, hargs⟩ := Reply.mk.injEq .. |>.mp hothers
          unfold settleAll replyFor
          refine Reply.mk.injEq .. |>.mpr ⟨?_, ?_⟩
          · refine congr (congrArg List.cons ?_) hresults
            exact (result_settleAll hlater).trans (congrArg Prod.fst hsettled)
          · refine congr (congrArg List.cons ?_) hargs
            exact (value_settleAll hlater).trans (congrArg Prod.snd hsettled)

end Memory

/-- For arguments in separate memory, a launch settles each argument on its own. -/
theorem run_eq (request : RunRequest) : run request = replyFor request.args <$> transfer request := by
  have hreply (fetched : List (Option ReadBack)) := settleAll_apart
    (Reference.apart_pairwise 0 request.args .blank) fetched (Placed.apart request.args).memory
  unfold run runIn
  simp only [bind_assoc, pure_bind, map_eq_pure_bind]
  refine bind_congr fun fetched => congrArg pure ((hreply fetched).trans ?_)
  exact congrArg (replyFor · fetched) (Placed.apart request.args).values_eq

theorem run_perform_eq (request : RunRequest) (w : World Machine) :
    (run request).perform w = (((transfer request).perform w).1.map (replyFor request.args),
      ((transfer request).perform w).2) := by
  rw [run_eq, Action.perform_map]

end KernelLaunch.Backend.OpenCL
