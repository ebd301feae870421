import Mathlib.Data.List.Forall2
import KernelLaunch.Proofs.Action

/-!
Relational reasoning about two actions run from the same state: they fail for the same
reason, or reach related results in the same state. One rule for each combinator of actions.
-/

namespace KernelLaunch.Action

variable {σ α β γ δ : Type}

theorem perform_bind_of_ok {x : Action σ α} {f : α → Action σ β} {w : World σ} {a : α}
    (h : (x.perform w).1 = .ok a) : (x >>= f).perform w = (f a).perform (x.perform w).2 := by
  rw [perform_bind]
  cases hx : x.perform w with
  | mk r after =>
      rw [hx] at h
      cases h
      rfl

theorem perform_bind_of_error {x : Action σ α} {f : α → Action σ β} {w : World σ} {e : Failure}
    (h : (x.perform w).1 = .error e) : ((x >>= f).perform w).1 = .error e := by
  rw [perform_bind]
  cases hx : x.perform w with
  | mk r after =>
      rw [hx] at h
      cases h
      rfl

/-- Two actions that, from a state with a property, fail alike or come to related
results and leave one state. -/
def Agree (before : σ → Prop) (x : Action σ α) (y : Action σ β) (after : α → β → σ → Prop) :
    Prop :=
  ∀ w w', w.state = w'.state → before w.state →
    (∃ e, (x.perform w).1 = .error e ∧ (y.perform w').1 = .error e) ∨
    ∃ a b, (x.perform w).1 = .ok a ∧ (y.perform w').1 = .ok b ∧
      (x.perform w).2.state = (y.perform w').2.state ∧ after a b (x.perform w).2.state

namespace Agree

variable {I : σ → Prop} {x : Action σ α} {y : Action σ β} {R : α → β → σ → Prop}

theorem pure {a : α} {b : β} (h : ∀ s, I s → R a b s) :
    Agree I (Pure.pure a) (Pure.pure b) R :=
  fun w _ hstate hI => .inr ⟨a, b, rfl, rfl, hstate, h w.state hI⟩

theorem throw (e : Failure) : Agree I (MonadExcept.throw e) (MonadExcept.throw e) R :=
  fun _ _ _ _ => .inl ⟨e, rfl, rfl⟩

theorem note {n n' : Note} {S : Unit → Unit → σ → Prop} (h : ∀ s, I s → S () () s) :
    Agree I (Action.note n) (Action.note n') S :=
  fun w _ hstate hI => .inr ⟨(), (), rfl, rfl, hstate, h w.state hI⟩

theorem state {S : σ → σ → σ → Prop} (h : ∀ s, I s → S s s s) :
    Agree I Action.state Action.state S :=
  fun w w' hstate hI => .inr ⟨w.state, w'.state, rfl, rfl, hstate, hstate ▸ h w.state hI⟩

theorem update {f : σ → σ} {S : Unit → Unit → σ → Prop} (h : ∀ s, I s → S () () (f s)) :
    Agree I (Action.update f) (Action.update f) S :=
  fun w _ hstate hI => .inr ⟨(), (), rfl, rfl, congrArg f hstate, h w.state hI⟩

/-- Computations that fail alike or come to related results. -/
theorem lift {r : Except Failure α} {r' : Except Failure β}
    (h : (∃ e, r = .error e ∧ r' = .error e) ∨ ∃ a b, r = .ok a ∧ r' = .ok b ∧ ∀ s, I s → R a b s) :
    Agree I (liftM r) (liftM r') R := by
  intro w w' hstate hI
  rcases h with ⟨e, hr, hr'⟩ | ⟨a, b, hr, hr', hR⟩
  · exact .inl ⟨e, hr, hr'⟩
  · exact .inr ⟨a, b, hr, hr', hstate, hR w.state hI⟩

theorem lift_eq {r r' : Except Failure α} (h : r = r') :
    Agree I (liftM r) (liftM r') fun a b s => a = b ∧ I s := by
  subst h
  cases r with
  | error e => exact .lift (.inl ⟨e, rfl, rfl⟩)
  | ok a => exact .lift (.inr ⟨a, a, rfl, rfl, fun s hs => ⟨rfl, hs⟩⟩)

theorem bind {f : α → Action σ γ} {g : β → Action σ δ} {S : γ → δ → σ → Prop}
    (hfirst : Agree I x y R) (hnext : ∀ a b, Agree (R a b) (f a) (g b) S) :
    Agree I (x >>= f) (y >>= g) S := by
  intro w w' hstate hI
  rcases hfirst w w' hstate hI with ⟨e, hx, hy⟩ | ⟨a, b, hx, hy, hafter, hR⟩
  · exact .inl ⟨e, perform_bind_of_error hx, perform_bind_of_error hy⟩
  · rw [perform_bind_of_ok hx, perform_bind_of_ok hy]
    exact hnext a b _ _ hafter hR

/-- Each state from which the runs may start can be looked at on its own. -/
theorem fixed (h : ∀ s, I s → Agree (· = s) x y R) : Agree I x y R :=
  fun w w' hstate hI => h w.state hI w w' hstate rfl

/-- Looking at a state that is known. -/
theorem state_bind {m : σ} {f : σ → Action σ γ} {g : σ → Action σ δ} {S : γ → δ → σ → Prop}
    (h : Agree (· = m) (f m) (g m) S) :
    Agree (· = m) (Action.state >>= f) (Action.state >>= g) S := by
  refine .bind (.state (S := fun a b s => a = m ∧ b = m ∧ s = m) ?_) fun a b => ?_
  · rintro s rfl
    exact ⟨rfl, rfl, rfl⟩
  · refine .fixed fun s hs => ?_
    obtain ⟨rfl, rfl, rfl⟩ := hs
    exact h

/-- A note does not change the state. -/
theorem note_bind {n n' : Note} {f : Unit → Action σ γ} {g : Unit → Action σ δ}
    {S : γ → δ → σ → Prop} (h : Agree I (f ()) (g ()) S) :
    Agree I (Action.note n >>= f) (Action.note n' >>= g) S :=
  .bind (.note (S := fun _ _ s => I s) fun _ hs => hs) fun _ _ => h

theorem update_bind {m : σ} {t : σ → σ} {f : Unit → Action σ γ} {g : Unit → Action σ δ}
    {S : γ → δ → σ → Prop} (h : Agree (· = t m) (f ()) (g ()) S) :
    Agree (· = m) (Action.update t >>= f) (Action.update t >>= g) S :=
  .bind (.update (S := fun _ _ s => s = t m) fun _ hs => congrArg t hs) fun _ _ => h

theorem mono {J : σ → Prop} {S : α → β → σ → Prop} (h : Agree I x y R) (hJ : ∀ s, J s → I s)
    (hS : ∀ a b s, R a b s → S a b s) : Agree J x y S := by
  intro w w' hstate hw
  rcases h w w' hstate (hJ _ hw) with herror | ⟨a, b, hx, hy, hafter, hR⟩
  · exact .inl herror
  · exact .inr ⟨a, b, hx, hy, hafter, hS a b _ hR⟩

/-- Items that are treated one after the other. What is known of the first ones
has to last while the state goes on. -/
theorem mapM {L : σ → σ → Prop} (refl : ∀ s, L s s)
    (trans : ∀ s t u, L s t → L t u → L s u) {Q : α → β → Prop}
    {f : α → Action σ γ} {g : β → Action σ δ} {S : α → β → γ → δ → σ → Prop}
    (lasts : ∀ a b c d s t, S a b c d s → L s t → S a b c d t) {start : σ}
    (step : ∀ a b, Q a b → ∀ s, L start s →
      Agree (· = s) (f a) (g b) fun c d t => L s t ∧ S a b c d t)
    {as : List α} {bs : List β} (h : List.Forall₂ Q as bs) {s : σ} (hs : L start s) :
    Agree (· = s) (as.mapM f) (bs.mapM g) fun cs ds t => L s t ∧ cs.length = as.length ∧
      ds.length = bs.length ∧
      List.Forall₂ (fun ac bd => S ac.1 bd.1 ac.2 bd.2 t) (as.zip cs) (bs.zip ds) := by
  induction h generalizing s with
  | nil => exact .pure fun t ht => ⟨ht ▸ refl s, rfl, rfl, .nil⟩
  | @cons a b as bs hab _ ih =>
      rw [List.mapM_cons, List.mapM_cons]
      refine .bind (step a b hab s hs) fun c d => .fixed fun t hfirst => ?_
      obtain ⟨hlater, hS⟩ := hfirst
      refine .bind (ih (trans _ _ _ hs hlater)) fun cs ds => .pure ?_
      rintro u ⟨hrest, hlength, hlength', hall⟩
      refine ⟨trans _ _ _ hlater hrest, ?_, ?_, .cons (lasts _ _ _ _ _ _ hS hrest) hall⟩
      · rw [List.length_cons, List.length_cons, hlength]
      · rw [List.length_cons, List.length_cons, hlength']

end Agree

/-- Two rows of results that look the same pair by pair look the same as a whole. -/
theorem map_eq_of_zip {ε : Type} {R : α × γ → β × δ → Prop} {f : γ → ε} {g : δ → ε}
    {as : List α} {bs : List β} {cs : List γ} {ds : List δ}
    (h : List.Forall₂ R (as.zip cs) (bs.zip ds)) (hc : cs.length = as.length)
    (hd : ds.length = bs.length) (heq : ∀ p q, R p q → f p.2 = g q.2) : cs.map f = ds.map g := by
  have hmap : (as.zip cs).map (fun p => f p.2) = (bs.zip ds).map (fun q => g q.2) := by
    rw [← List.forall₂_eq_eq_eq, List.forall₂_map_left_iff, List.forall₂_map_right_iff]
    exact h.imp heq
  calc
    cs.map f = ((as.zip cs).map Prod.snd).map f := by rw [List.map_snd_zip (Nat.le_of_eq hc)]
    _ = ((bs.zip ds).map Prod.snd).map g := by rw [List.map_map, List.map_map]; exact hmap
    _ = ds.map g := by rw [List.map_snd_zip (Nat.le_of_eq hd)]

end KernelLaunch.Action
