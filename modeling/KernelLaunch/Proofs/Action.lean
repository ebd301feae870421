import KernelLaunch.Action

/-!
Equations for performing actions. Each combinator of actions has one equation for its
outcome and the world after it, so no proof unfolds an action down to its monad. Invariants
and simulations of actions are proved combinator by combinator.
-/

namespace KernelLaunch.Action

variable {σ α β : Type}

@[simp] theorem perform_pure (a : α) (w : World σ) :
    (pure a : Action σ α).perform w = (.ok a, w) := rfl

@[simp] theorem perform_throw (e : Failure) (w : World σ) :
    (throw e : Action σ α).perform w = (.error e, w) := rfl

@[simp] theorem perform_note (n : Note) (w : World σ) :
    (note n : Action σ Unit).perform w =
      (.ok (), { w with notes := w.notes ++ [n] }) := rfl

@[simp] theorem perform_state (w : World σ) :
    (state : Action σ σ).perform w = (.ok w.state, w) := rfl

@[simp] theorem perform_update (f : σ → σ) (w : World σ) :
    (update f).perform w = (.ok (), { w with state := f w.state }) := rfl

/-- Something that may fail and does nothing else. -/
@[simp] theorem perform_lift (r : Except Failure α) (w : World σ) :
    (liftM r : Action σ α).perform w = (r, w) := rfl

/-- A first action that fails ends the whole; what it did stays. -/
theorem perform_bind (x : Action σ α) (f : α → Action σ β) (w : World σ) :
    (x >>= f).perform w = match x.perform w with
      | (.ok a, after) => (f a).perform after
      | (.error e, after) => (.error e, after) := by
  cases h : x.perform w with
  | mk r after =>
      have hrun : x w = (r, after) := h
      simp only [perform, bind, ExceptT.bind, ExceptT.mk, ExceptT.run, StateT.bind, StateT.run,
        ExceptT.bindCont, hrun]
      cases r with
      | error e => rfl
      | ok a => rfl

theorem perform_map (f : α → β) (x : Action σ α) (w : World σ) :
    (f <$> x).perform w = ((x.perform w).1.map f, (x.perform w).2) := by
  rw [map_eq_pure_bind, perform_bind]
  rcases x.perform w with ⟨e | a, after⟩ <;> rfl

theorem perform_bind_goes {x : Action σ α} {f : α → Action σ β} {w next : World σ} {a : α}
    (h : x.perform w = (.ok a, next)) : (x >>= f).perform w = (f a).perform next := by
  rw [perform_bind, h]

theorem perform_bind_stops {x : Action σ α} {f : α → Action σ β} {w next : World σ} {e : Failure}
    (h : x.perform w = (.error e, next)) : (x >>= f).perform w = (.error e, next) := by
  rw [perform_bind, h]

/-- What goes well has a first action that goes well. -/
theorem perform_bind_ok_iff {x : Action σ α} {f : α → Action σ β} {w after : World σ} {b : β} :
    (x >>= f).perform w = (.ok b, after) ↔
      ∃ a next, x.perform w = (.ok a, next) ∧ (f a).perform next = (.ok b, after) := by
  rw [perform_bind]
  rcases x.perform w with ⟨e | a, next⟩
  · simp
  · constructor
    · exact fun h => ⟨a, next, rfl, h⟩
    · rintro ⟨_, _, ⟨⟩, h⟩
      exact h

/-- A sequence that succeeds has succeeded step by step. -/
theorem perform_bind_ok {x : Action σ α} {f : α → Action σ β} {w : World σ} {b : β}
    (h : ((x >>= f).perform w).1 = .ok b) :
    ∃ a, (x.perform w).1 = .ok a ∧ ((f a).perform (x.perform w).2).1 = .ok b := by
  obtain ⟨a, next, hfirst, hnext⟩ := perform_bind_ok_iff.mp (Prod.ext h rfl)
  refine ⟨a, congrArg Prod.fst hfirst, ?_⟩
  rw [hfirst, hnext]

theorem mapM_cons_goes {f : α → Action σ β} {a : α} {items : List α} {w next : World σ} {b : β}
    (h : (f a).perform w = (.ok b, next)) :
    ((a :: items).mapM f).perform w =
      (items.mapM f >>= fun out => pure (b :: out)).perform next := by
  rw [List.mapM_cons, perform_bind_goes h]

/-- A list is treated up to the first item that fails. -/
theorem mapM_stops {f : α → Action σ β} {earlier later : List α} {a : α} {w before after : World σ}
    {out : List β} {e : Failure} (h : (earlier.mapM f).perform w = (.ok out, before))
    (hfails : (f a).perform before = (.error e, after)) :
    ((earlier ++ a :: later).mapM f).perform w = (.error e, after) := by
  induction earlier generalizing w out with
  | nil =>
      cases h
      rw [List.nil_append, List.mapM_cons, perform_bind_stops hfails]
  | cons first earlier ih =>
      rw [List.mapM_cons] at h
      obtain ⟨b, next, hfirst, h⟩ := perform_bind_ok_iff.mp h
      obtain ⟨others, reached, hrest, h⟩ := perform_bind_ok_iff.mp h
      cases h
      rw [List.cons_append, mapM_cons_goes hfirst, perform_bind_stops (ih hrest)]

/-- All items of a list are treated, or it is left at the first that fails. -/
theorem mapM_ok_or_stops (f : α → Action σ β) (items : List α) (w : World σ) :
    (∃ out after, (items.mapM f).perform w = (.ok out, after)) ∨
      ∃ earlier a later out before e after, items = earlier ++ a :: later ∧
        (earlier.mapM f).perform w = (.ok out, before) ∧
        (f a).perform before = (.error e, after) := by
  induction items generalizing w with
  | nil => exact .inl ⟨[], w, rfl⟩
  | cons first items ih =>
      rcases hfirst : (f first).perform w with ⟨e | b, next⟩
      · exact .inr ⟨[], first, items, [], w, e, next, rfl, rfl, hfirst⟩
      · rcases ih next with ⟨out, after, hrest⟩ |
          ⟨earlier, a, later, out, before, e, after, rfl, hearlier, hfails⟩
        · refine .inl ⟨b :: out, after, ?_⟩
          rw [mapM_cons_goes hfirst, perform_bind_goes hrest, perform_pure]
        · refine .inr ⟨first :: earlier, a, later, b :: out, before, e, after, rfl, ?_, hfails⟩
          rw [mapM_cons_goes hfirst, perform_bind_goes hearlier, perform_pure]

/-- Two actions that come to the same in related worlds, and leave them related. -/
def Simulates {τ : Type} (R : World σ → World τ → Prop) (x : Action σ α) (y : Action τ α) : Prop :=
  ∀ w v, R w v → (x.perform w).1 = (y.perform v).1 ∧ R (x.perform w).2 (y.perform v).2

namespace Simulates

variable {τ : Type} {R : World σ → World τ → Prop}

theorem pure (a : α) : Simulates R (Pure.pure a) (Pure.pure a) := fun _ _ h => ⟨rfl, h⟩

theorem throw (e : Failure) : Simulates (α := α) R (MonadExcept.throw e) (MonadExcept.throw e) :=
  fun _ _ h => ⟨rfl, h⟩

theorem lift (r : Except Failure α) : Simulates R (liftM r) (liftM r) := fun _ _ h => ⟨rfl, h⟩

theorem bind {x : Action σ α} {y : Action τ α} {f : α → Action σ β} {g : α → Action τ β}
    (hfirst : Simulates R x y) (hnext : ∀ a, Simulates R (f a) (g a)) :
    Simulates R (x >>= f) (y >>= g) := by
  intro w v h
  obtain ⟨houtcome, hworld⟩ := hfirst w v h
  rw [perform_bind, perform_bind]
  cases hx : x.perform w with
  | mk r after =>
      cases hy : y.perform v with
      | mk r' after' =>
          simp only [hx, hy] at houtcome hworld
          subst houtcome
          cases r with
          | error e => exact ⟨rfl, hworld⟩
          | ok a => exact hnext a after after' hworld

end Simulates

/-- An action that keeps a property of the world, whether it fails or not. -/
def Preserves (Q : World σ → Prop) (x : Action σ α) : Prop := ∀ w, Q w → Q (x.perform w).2

namespace Preserves

variable {Q : World σ → Prop}

theorem pure (a : α) : Preserves Q (Pure.pure a) := fun _ h => h

theorem throw (e : Failure) : Preserves (α := α) Q (MonadExcept.throw e) := fun _ h => h

theorem state : Preserves Q Action.state := fun _ h => h

theorem lift (r : Except Failure α) : Preserves Q (liftM r) := fun _ h => h

theorem note {n : Note} (h : ∀ w, Q w → Q { w with notes := w.notes ++ [n] }) :
    Preserves Q (Action.note n) := h

theorem update {f : σ → σ} (h : ∀ w, Q w → Q { w with state := f w.state }) :
    Preserves Q (Action.update f) := h

theorem bind {x : Action σ α} {f : α → Action σ β} (hx : Preserves Q x)
    (hf : ∀ a, Preserves Q (f a)) : Preserves Q (x >>= f) := by
  intro w hw
  have hafter := hx w hw
  rw [perform_bind]
  cases h : x.perform w with
  | mk r after =>
      rw [h] at hafter
      cases r with
      | error e => exact hafter
      | ok a => exact hf a after hafter

/-- What an action keeps is what two runs of it keep that are the same. -/
theorem iff_simulates {x : Action σ α} :
    Preserves Q x ↔ Simulates (fun w v => w = v ∧ Q w) x x := by
  constructor
  · rintro h w _ ⟨rfl, hw⟩
    exact ⟨rfl, rfl, h w hw⟩
  · intro h w hw
    exact (h w w ⟨rfl, hw⟩).2.2

theorem mapM {f : α → Action σ β} (h : ∀ a, Preserves Q (f a)) (items : List α) :
    Preserves Q (items.mapM f) := by
  induction items with
  | nil => exact .pure []
  | cons a rest ih =>
      rw [List.mapM_cons]
      exact .bind (h a) fun _ => .bind ih fun _ => .pure _

end Preserves

/-- An action that fails, if it does, for a reason with a property only. -/
def Fails (P : Failure → Prop) (x : Action σ α) : Prop :=
  ∀ w e, (x.perform w).1 = .error e → P e

namespace Fails

variable {P : Failure → Prop}

theorem pure (a : α) : Fails (σ := σ) P (Pure.pure a) := nofun

theorem throw {e : Failure} (h : P e) : Fails (σ := σ) (α := α) P (MonadExcept.throw e) := by
  rintro w _ ⟨⟩
  exact h

theorem state : Fails (σ := σ) P Action.state := nofun

theorem note (n : Note) : Fails (σ := σ) P (Action.note n) := nofun

theorem lift {r : Except Failure α} (h : ∀ e, r = .error e → P e) :
    Fails (σ := σ) P (liftM r) := fun _ e he => h e he

theorem bind {x : Action σ α} {f : α → Action σ β} (hx : Fails P x) (hf : ∀ a, Fails P (f a)) :
    Fails P (x >>= f) := by
  intro w e he
  have hfirst := hx w
  rw [perform_bind] at he
  cases h : x.perform w with
  | mk r after =>
      rw [h] at he hfirst
      cases r with
      | error e' =>
          cases he
          exact hfirst _ rfl
      | ok a => exact hf a after e he

end Fails

end KernelLaunch.Action
