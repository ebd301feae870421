import KernelLaunch.Host.Complex

/-!
Conversion failures carry no message. So a failed conversion of an argument cannot be
mistaken for one of the errors that the library itself describes in words.
-/

namespace KernelLaunch.Host

/-- If a step fails, its failure has no text. -/
def Silent {α : Type} (x : Except Failure α) : Prop := ∀ e, x = .error e → e.message? = none

namespace Silent

variable {α β : Type}

theorem ok (a : α) : Silent (.ok a) := nofun

theorem error {e : Failure} (h : e.message? = none) : Silent (.error e : Except Failure α) := by
  rintro _ ⟨⟩
  exact h

theorem bind {x : Except Failure α} {f : α → Except Failure β} (hx : Silent x)
    (hf : ∀ a, Silent (f a)) : Silent (x >>= f) := by
  intro e h
  cases x with
  | error _ =>
      cases h
      exact hx e rfl
  | ok a => exact hf a e h

theorem map {x : Except Failure α} {f : α → β} (hx : Silent x) : Silent (x.map f) := by
  intro e h
  cases x with
  | error _ =>
      cases h
      exact hx e rfl
  | ok a => cases h

theorem mapM {f : α → Except Failure β} (hf : ∀ a, Silent (f a)) (items : List α) :
    Silent (items.mapM f) := by
  induction items with
  | nil => exact .ok []
  | cons a rest ih =>
      rw [List.mapM_cons]
      exact .bind (hf a) fun _ => .bind ih fun _ => .ok _

theorem tryMap {f : α → Except Failure β} (hf : ∀ a, Silent (f a)) (g : Grid α) :
    Silent (g.tryMap f) := by
  intro e h
  obtain ⟨a, _, hfails⟩ := Grid.tryMap_error h
  exact hf a e hfails

theorem ite {c : Prop} [Decidable c] {x y : Except Failure α} (hx : Silent x) (hy : Silent y) :
    Silent (if c then x else y) := by
  split
  · exact hx
  · exact hy

end Silent

section Leaves

variable (target : Storage)

theorem doubleOfInt_silent (n : Int) : Silent (doubleOfInt n) := by
  unfold doubleOfInt
  dsimp only
  split
  · exact .ok _
  · exact .error rfl

theorem wholePart_silent {p : Number.Precision} (x : Number.Binary p) : Silent (wholePart x) := by
  unfold wholePart
  split
  · exact .ok _
  · exact .error rfl
  · exact .error rfl

theorem storeWhole_silent (signed : Bool) (width : Width) (n : Int) :
    Silent (storeWhole signed width n) := .ite (.ok _) (.error rfl)

theorem storeInt_silent (n : Int) : Silent (storeInt n target) := by
  cases target with
  | truth => exact .ok _
  | integer signed width => exact storeWhole_silent signed width _
  | real p => exact (doubleOfInt_silent n).map
  | complex parts => exact (doubleOfInt_silent n).map

theorem storeReal_silent (x : Number.Binary .double) : Silent (storeReal x target) := by
  cases target with
  | truth => exact .ok _
  | integer signed width =>
      exact (wholePart_silent x).bind fun _ => storeWhole_silent signed width _
  | real p => exact .ok _
  | complex parts => exact .ok _

theorem storeComplex_silent (re im : Number.Binary .double) :
    Silent (storeComplex re im target) := by
  cases target with
  | truth => exact .ok _
  | complex parts => exact .ok _
  | _ => exact .error rfl

theorem storeAbsent_silent : Silent (storeAbsent target) := by
  cases target with
  | integer signed width => exact .error rfl
  | _ => exact .ok _

theorem realOfText_silent (s : String) : Silent (realOfText s) := by
  unfold realOfText
  split
  · exact .ok _
  · exact .error rfl

theorem storeText_silent (s : String) : Silent (storeText s target) := by
  cases target with
  | truth => exact .ok _
  | integer signed width =>
      unfold storeText
      dsimp only
      split
      · exact storeWhole_silent signed width _
      · exact .error rfl
  | real p => exact (realOfText_silent s).map
  | complex parts => exact (realOfText_silent s).map

theorem elementWhole_silent (s : Storage) (e : s.Elem) : Silent (elementWhole s e) := by
  cases s with
  | truth => exact .ok _
  | integer signed width => exact .ok _
  | real p => exact wholePart_silent e
  | complex parts => exact wholePart_silent e.1

theorem storeElement_silent (s : Storage) (e : s.Elem) : Silent (storeElement s e target) := by
  cases target with
  | integer signed width =>
      cases signed with
      | true => exact (elementWhole_silent s e).bind fun _ => storeWhole_silent true width _
      | false => exact .ok _
  | _ => exact .ok _

theorem Atom.store_silent (a : Atom) : Silent (a.store target) := by
  cases a with
  | absent => exact storeAbsent_silent target
  | truth b => exact .ok _
  | int n => exact storeInt_silent target n
  | real x => exact storeReal_silent target x
  | complex re im => exact storeComplex_silent target re im
  | text s => exact storeText_silent target s
  | element s e => exact storeElement_silent target s e

theorem Leaf.store_silent (l : Leaf) : Silent (l.store target) := by
  cases l with
  | cell s e => exact .ok _
  | alone a => exact a.store_silent target

end Leaves

theorem Value.leaves_silent (v : Value) : Silent v.leaves := by
  unfold Value.leaves
  split
  · exact .ite (.error rfl) (.ok _)
  · exact .error rfl

theorem Value.isSingle_silent (v : Value) : Silent v.isSingle :=
  v.leaves_silent.bind fun _ => .ok _

theorem Value.collectAs_silent (target : Storage) (v : Value) : Silent (v.collectAs target) := by
  have hstore : Silent (v.leaves >>= fun leaves => leaves.tryMap (Leaf.store target) >>= fun k =>
      .ok ⟨target, k.1⟩ : Except Failure Tensor) := by
    exact v.leaves_silent.bind fun leaves =>
      .bind (.tryMap (Leaf.store_silent target) leaves) fun _ => .ok _
  cases v with
  | array a => exact .ok _
  | list items => exact hstore
  | atom a =>
      cases a with
      | element s e => exact .ok _
      | _ => exact hstore

theorem Value.collect_silent (v : Value) : Silent v.collect := by
  cases v with
  | array a => exact .ok _
  | atom | list =>
      refine (Value.leaves_silent _).bind fun _ => ?_
      split
      · exact Value.collectAs_silent _ _
      · exact .error rfl

theorem Value.isComplex_silent (v : Value) : Silent v.isComplex := by
  refine v.leaves_silent.bind fun _ => ?_
  split
  · exact .ok _
  · exact .ok _

theorem Value.split_silent (v : Value) : Silent v.split :=
  v.collect_silent.bind fun _ => .ite (.error rfl) (.ok _)

theorem Tensor.join_silent (t : Tensor) : Silent t.join := by
  unfold Tensor.join
  split
  · exact .error rfl
  · split
    · exact .ok _
    · exact .error rfl

theorem Leaf.textPart_silent (l : Leaf) : Silent l.textPart := realOfText_silent _

theorem Leaf.objectPart_silent (isOnly : Bool) (l : Leaf) : Silent (l.objectPart isOnly) := by
  cases l with
  | alone a =>
      cases a with
      | absent => exact Atom.store_silent (.real .double) .absent
      | truth b => exact Atom.store_silent (.real .double) (.truth b)
      | int n => exact Atom.store_silent (.real .double) (.int n)
      | real x => exact Atom.store_silent (.real .double) (.real x)
      | complex re im => exact .ite (.ok _) (.error rfl)
      | text s => exact realOfText_silent s
      | element s e => exact .ok _
  | cell s e =>
      cases s with
      | complex parts => exact .ite (.ok _) (.error rfl)
      | _ => exact .ok _

theorem joinLeaves_silent {read : Leaf → Except Failure (Number.Binary .double)}
    (hread : ∀ l, Silent (read l)) (g : Grid Leaf) : Silent (joinLeaves g read) := by
  unfold joinLeaves
  split
  · exact .error rfl
  · split
    · refine .bind (.tryMap hread _) ?_
      rintro ⟨re, hre⟩
      dsimp only
      split
      · exact .bind (.tryMap hread _) fun _ => .ok _
      · exact .error rfl
    · exact .error rfl

theorem Value.join_silent (v : Value) : Silent v.join := by
  refine v.leaves_silent.bind fun leaves => ?_
  split
  · exact v.collect_silent.bind fun t => t.join_silent
  · exact joinLeaves_silent Leaf.textPart_silent leaves
  · exact joinLeaves_silent (Leaf.objectPart_silent _) leaves

end KernelLaunch.Host
