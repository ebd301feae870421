import KernelLaunch.Kernel.Settings
import KernelLaunch.Proofs.Backend.Recording
import KernelLaunch.Proofs.Device.Queries
import KernelLaunch.Proofs.Kernel.Launch

/-!
Kernels with a common device directory and a common backend. What an operation makes of a
kernel depends on the visible devices and on the compiler's replies only.
-/

namespace KernelLaunch

open Host Device Backend Kernel Directory

variable {σ : Type}

namespace Device.Directory

open Steps

variable {α β : Type} {platforms : Platforms}

/-- A query that leaves the devices as an access sees them. -/
def Keeps (platforms : Platforms) (x : Query α) : Prop :=
  ∀ d, visible platforms (perform x d).2 = visible platforms d

namespace Keeps

theorem bind {x : Query α} {f : α → Query β} (hx : Keeps platforms x)
    (hf : ∀ a, Keeps platforms (f a)) : Keeps platforms (x >>= f) := by
  intro d
  have hd := hx d
  rw [perform_bind]
  cases hperform : perform x d with
  | mk r after =>
      rw [hperform] at hd
      cases r with
      | error e => exact hd
      | ok a => exact (hf a after).trans hd

theorem devices : Keeps platforms (Directory.devices platforms) := by
  intro d
  rw [perform_devices]
  exact visible_accessed platforms d

theorem current (platforms : Platforms) : Keeps platforms (Directory.current platforms) := by
  intro d
  rw [perform_current]
  exact visible_accessed platforms d

theorem select (platforms : Platforms) (index : Value) :
    Keeps platforms (Directory.select platforms index) := by
  have hchoose (v : Option Value) :
      Keeps platforms (modify fun d => { d with selected := v } : Query Unit) := fun _ => rfl
  refine .bind .devices fun ds => ?_
  split
  · exact .bind (hchoose none) fun _ _ => rfl
  · refine .bind (fun _ => rfl) fun below => ?_
    split
    · exact .bind (hchoose _) fun _ => .bind (fun _ => rfl) fun _ =>
        .bind (fun _ => rfl) fun _ _ => rfl
    · exact fun _ => rfl

end Keeps

/-- A query with an outcome that depends on these devices only, whatever is selected. -/
structure Blind (platforms : Platforms) (x : Query α) : Prop where
  keeps : Keeps platforms x
  outcome : ∀ d d', visible platforms d = visible platforms d' →
    (perform x d).1 = (perform x d').1

namespace Blind

theorem pure (a : α) : Blind platforms (Pure.pure a : Query α) :=
  ⟨fun _ => rfl, fun _ _ _ => rfl⟩

theorem throw (e : Failure) : Blind platforms (throwThe Failure e : Query α) :=
  ⟨fun _ => rfl, fun _ _ _ => rfl⟩

theorem lift (r : Except Failure α) : Blind platforms (liftM r : Query α) :=
  ⟨fun _ => rfl, fun _ _ _ => rfl⟩

theorem bind {x : Query α} {f : α → Query β} (hx : Blind platforms x)
    (hf : ∀ a, Blind platforms (f a)) : Blind platforms (x >>= f) := by
  refine ⟨hx.keeps.bind fun a => (hf a).keeps, ?_⟩
  intro d d' hvisible
  have houtcome := hx.outcome d d' hvisible
  have hd := hx.keeps d
  have hd' := hx.keeps d'
  rw [perform_bind, perform_bind]
  cases hperform : perform x d with
  | mk r after =>
      cases hperform' : perform x d' with
      | mk r' after' =>
          rw [hperform, hperform'] at houtcome
          rw [hperform] at hd
          rw [hperform'] at hd'
          dsimp only at houtcome hd hd'
          subst houtcome
          cases r with
          | error e => rfl
          | ok a => exact (hf a).outcome after after' (hd.trans (hvisible.trans hd'.symm))

theorem foldlM {f : α → β → Query α} (hf : ∀ a b, Blind platforms (f a b)) (items : List β)
    (a : α) : Blind platforms (items.foldlM f a) := by
  induction items generalizing a with
  | nil => exact .pure a
  | cons b rest ih =>
      rw [List.foldlM_cons]
      exact .bind (hf a b) ih

theorem devices : Blind platforms (Directory.devices platforms) := by
  refine ⟨.devices, ?_⟩
  intro d d' hvisible
  rw [perform_devices, perform_devices]
  exact hvisible

theorem available (index : Value) : Blind platforms (Directory.available platforms index) := by
  refine .bind .devices fun ds => .bind (.lift _) fun below => ?_
  split
  · exact .bind (.lift _) fun _ => .lift _
  · exact .throw _

end Blind

end Device.Directory

namespace Kernel

theorem assignedDevice_blind (platforms : Platforms) (a : Assigned) :
    Blind platforms (assignedDevice platforms a) := by
  unfold assignedDevice
  split
  · exact .pure _
  · exact .pure _
  · exact .bind (.available _) fun _ => .pure _

theorem set_blind (platforms : Platforms) (k : Kernel) (s : Setting) (a : Assigned) :
    Blind platforms (k.set platforms s a) := by
  unfold set
  split
  · exact .bind (.lift _) fun _ => .pure _
  · exact .bind (assignedDevice_blind platforms _) fun _ => .pure _
  · exact .bind (.lift _) fun _ => .pure _
  · exact .throw _

theorem withChanges_blind (platforms : Platforms) (k : Kernel)
    (fields : List (String × Assigned)) : Blind platforms (k.withChanges platforms fields) := by
  refine .foldlM (fun k field => ?_) _ k
  obtain ⟨name, a⟩ := field
  dsimp only
  split
  · exact set_blind platforms k _ a
  · exact .throw _

/-- A build changes nothing but the record of the build. -/
theorem build_settings {b : Backend σ} {k built : Kernel} {extra : Value} {w after : World σ}
    {device : Device} (h : (k.build b extra).perform w = (.ok (built, device), after)) :
    built = { k with built := built.built } := by
  have hrun := build_run b k extra w
  rw [h] at hrun
  cases hrun with
  | built => rfl

theorem ready_settings {b : Backend σ} {k built : Kernel} {w after : World σ} {device : Device}
    (h : (k.ready b).perform w = (.ok (built, device), after)) :
    built = { k with built := built.built } := by
  cases hbuilt : k.builtFor? with
  | error e =>
      rw [ready_of_error b w hbuilt] at h
      cases h
  | ok for? =>
      cases for? with
      | some own =>
          rw [ready_of_built b w hbuilt] at h
          cases h
          rfl
      | none =>
          rw [ready_of_unbuilt b w hbuilt] at h
          exact build_settings h

/-- The kernel after a call is the one that was ready. -/
theorem call_kernel (b : Backend σ) (k : Kernel) (args : List Value) (inPlace : Bool)
    (w : World σ) :
    (k.call b args inPlace w).kernel =
      if args.length = k.parameters.length then
        ((k.ready b).perform w).1.toOption.elim k Prod.fst
      else k := by
  unfold call
  by_cases hcount : args.length = k.parameters.length
  · rw [if_neg (not_not_intro hcount), if_pos hcount]
    rcases (k.ready b).perform w with ⟨e | ⟨built, device⟩, after⟩
    · rfl
    · rfl
  · rw [if_pos hcount, if_neg hcount]

theorem call_settings (b : Backend σ) (k : Kernel) (args : List Value) (inPlace : Bool)
    (w : World σ) :
    (k.call b args inPlace w).kernel =
      { k with built := (k.call b args inPlace w).kernel.built } := by
  rw [call_kernel]
  split
  · rcases hready : (k.ready b).perform w with ⟨e | ⟨built, device⟩, after⟩
    · rfl
    · exact ready_settings hready
  · rfl

/-- A backend with deterministic compilations: under the world invariant `Q`, which every
request preserves, its reply to a compile request is a function of the request. -/
structure Settled (b : Backend σ) (Q : World σ → Prop)
    (answer : CompileRequest → Except Failure (List String)) : Prop where
  note : ∀ n, Action.Preserves Q (Action.note n)
  compile : ∀ request, Action.Preserves Q (b.compile request)
  run : ∀ request, Action.Preserves Q (b.run request)
  answers : ∀ request w, Q w → ((b.compile request).perform w).1 = answer request

namespace Settled

variable {b : Backend σ} {Q : World σ → Prop}
  {answer : CompileRequest → Except Failure (List String)}

theorem note_simulates (h : Settled b Q answer) (n : Note) :
    Action.Simulates (fun w v => Q w ∧ Q v) (Action.note n) (Action.note n) :=
  fun w v hworlds => ⟨rfl, h.note n w hworlds.1, h.note n v hworlds.2⟩

theorem compile_simulates (h : Settled b Q answer) (request : CompileRequest) :
    Action.Simulates (fun w v => Q w ∧ Q v) (b.compile request) (b.compile request) := by
  intro w v hworlds
  refine ⟨?_, h.compile request w hworlds.1, h.compile request v hworlds.2⟩
  rw [h.answers request w hworlds.1, h.answers request v hworlds.2]

theorem build_eq (h : Settled b Q answer) (k : Kernel) (extra : Value) {w v : World σ} (hw : Q w)
    (hv : Q v) : ((k.build b extra).perform w).1 = ((k.build b extra).perform v).1 :=
  (build_simulates h.note_simulates h.compile_simulates k extra w v ⟨hw, hv⟩).1

theorem call_kernel_eq (h : Settled b Q answer) (k : Kernel) (args : List Value) (inPlace : Bool)
    {w v : World σ} (hw : Q w) (hv : Q v) :
    (k.call b args inPlace w).kernel = (k.call b args inPlace v).kernel := by
  have hready := (ready_simulates h.note_simulates h.compile_simulates k w v ⟨hw, hv⟩).1
  rw [call_kernel, call_kernel, hready]

end Settled

/-- What is done to a kernel. -/
inductive Use where
  | set (s : Setting) (a : Assigned)
  /-- A list of options is edited in place. -/
  | edit (l : OptionList) (change : List Value → List Value)
  | define (types names : Value)
  | build (extra : Value)
  | call (args : List Value) (inPlace : Bool)

/-- The kernel after an operation, as a function of the visible devices and the compiler's
replies. -/
def Use.after (b : Backend σ) (platforms : Platforms) (d : Directory) (w : World σ)
    (k : Kernel) : Use → Kernel
  | .set s a => (Steps.perform (k.set platforms s a) d).1.toOption.getD k
  | .edit l change => k.withOptions l (change (k.optionsIn l))
  | .define types names => (k.defineTypes types names).toOption.getD k
  | .build extra => ((k.build b extra).perform w).1.toOption.elim k Prod.fst
  | .call args inPlace => (k.call b args inPlace w).kernel

/-- It depends on the devices and on the answers of the compiler only. -/
theorem Use.after_eq {b : Backend σ} {Q : World σ → Prop}
    {answer : CompileRequest → Except Failure (List String)} (hb : Settled b Q answer)
    {platforms : Platforms} {d d' : Directory} {w v : World σ}
    (hvisible : visible platforms d = visible platforms d') (hw : Q w) (hv : Q v) (k : Kernel)
    (use : Use) : use.after b platforms d w k = use.after b platforms d' v k := by
  cases use with
  | set s a => simp only [after, (set_blind platforms k s a).outcome d d' hvisible]
  | edit => rfl
  | define => rfl
  | build extra => simp only [after, hb.build_eq k extra hw hv]
  | call args inPlace => exact hb.call_kernel_eq k args inPlace hw hv

end Kernel

end KernelLaunch
