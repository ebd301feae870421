import KernelLaunch.Proofs.Backend.Apart
import KernelLaunch.Proofs.Backend.ByValue
import KernelLaunch.Proofs.Except
import KernelLaunch.Proofs.TwoRuns

/-!
The OpenCL backend goes by argument values. The memory layout of an array decides whether
the copy back goes into its memory, and has no influence on what is copied. Two launches of
equal values run side by side with the same buffers.
-/

namespace KernelLaunch.Backend

open Host KernelLaunch.Action

namespace OpenCL

section HostSides

theorem byValue_content (v : Value) (readOnly : Bool) :
    byValue v.content readOnly = byValue v readOnly := by
  unfold byValue
  rw [Value.isSingle_content]

theorem singleElement_content (v : Value) : singleElement v.content = singleElement v := by
  unfold singleElement
  simp only [Value.leaves_content, Value.kind_content, Value.collectAs_content]

/-- The host sides of equal values hold the same, or there are none. -/
theorem hostSide_agree {v v' : Value} (h : v.content = v'.content) (readOnly : Bool) :
    (∃ e, hostSide v readOnly = .error e ∧ hostSide v' readOnly = .error e) ∨
      ∃ side side', hostSide v readOnly = .ok side ∧ hostSide v' readOnly = .ok side' ∧
        side.tensor = side'.tensor := by
  rcases Value.content_cases h with rfl | ⟨a, a', rfl, rfl, htensor⟩
  · cases hside : hostSide v readOnly with
    | error e => exact .inl ⟨e, rfl, rfl⟩
    | ok side => exact .inr ⟨side, side, rfl, rfl, rfl⟩
  · exact .inr ⟨_, _, rfl, rfl, congrArg dimensioned htensor⟩

/-- Only an array with a dimension is its own host side, and only one without is another array
in the same memory. -/
theorem hostSide_array {a : HostArray} {side : HostSide}
    (h : hostSide (.array a) false = .ok side) :
    (side.sharing = .same → a.tensor.shape ≠ []) ∧ (side.sharing = .view → a.tensor.shape = []) ∧
      side.tensor = dimensioned a.tensor := by
  unfold hostSide at h
  cases h
  refine ⟨fun hsame hempty => ?_, fun hview => ?_, rfl⟩
  · rw [hempty] at hsame
    cases hreadOnly : a.readOnly <;> simp [hreadOnly] at hsame
  · by_contra hshape
    cases hreadOnly : a.readOnly <;> cases hrow : a.isRowMajor <;>
      simp [hreadOnly, hrow, hshape] at hview

/-- A tensor without dimensions gets one of extent one, and no other tensor is changed. -/
theorem shape_dimensioned (t : Tensor) :
    (dimensioned t).shape = if t.shape = [] then [1] else t.shape := by
  unfold dimensioned
  split
  · next hshape =>
    rw [if_pos hshape]
    change [t.grid.cells.length] = [1]
    rw [t.grid.count, show t.grid.shape = [] from hshape, volume_nil]
  · next hshape => rw [if_neg hshape]

/-- The type and the shape of a tensor. -/
def form (t : Tensor) : Storage × List Nat := (t.storage, t.shape)

theorem refill_tensor {a : HostArray} {t : Tensor} (h : form t = form a.tensor) :
    (a.refill t).tensor = t := by
  obtain ⟨⟨storage, shape, cells, count⟩, columnMajor, readOnly⟩ := a
  obtain ⟨storage', shape', cells', count'⟩ := t
  obtain ⟨rfl, rfl⟩ := Prod.mk.injEq .. |>.mp h
  unfold HostArray.refill
  rw [dif_pos ⟨rfl, rfl⟩]
  rfl

/-- A row is the same row in an array without dimensions. -/
theorem refill_flat {a : HostArray} {t : Tensor} (hshape : a.tensor.shape = [])
    (h : form t = form (dimensioned a.tensor)) : (a.refill t).flat.tensor = t := by
  obtain ⟨⟨storage, shape, cells, count⟩, columnMajor, readOnly⟩ := a
  obtain ⟨storage', shape', cells', count'⟩ := t
  change shape = [] at hshape
  subst hshape
  obtain ⟨rfl, rfl⟩ : storage' = storage ∧ shape' = [cells.length] := Prod.mk.injEq .. |>.mp h
  have hsize : volume [cells.length] = volume [] := by simpa [volume] using count
  have hlength : cells'.length = cells.length := count'.trans (hsize.trans count.symm)
  unfold HostArray.refill
  rw [dif_pos ⟨rfl, hsize⟩]
  simp only [HostArray.flat, Grid.reshape, Grid.flat, hlength]

/-- What has been read back fits the memory that it goes into. -/
def ReadBack.Fits (b : ReadBack) (arg : Value) : Prop :=
  match b.host.sharing, arg with
  | .same, .array a => form b.content = form a.tensor
  | .view, .array a => a.tensor.shape = [] ∧ form b.content = form (dimensioned a.tensor)
  | _, _ => True

/-- What fits is in the result as it has been read back, wherever it is put. -/
theorem ReadBack.Fits.content_eq {b : ReadBack} {arg : Value} (h : b.Fits arg) :
    (readBack arg b).1.value.content = .ofTensor b.content := by
  obtain ⟨⟨tensor, sharing⟩, content⟩ := b
  cases arg with
  | atom | list => cases sharing <;> rfl
  | array a =>
      cases sharing with
      | same => exact congrArg Value.ofTensor (refill_tensor h)
      | view => exact congrArg Value.ofTensor (refill_flat h.1 h.2)
      | separate => rfl

/-- What has the form of the host side of an argument fits the argument. -/
theorem fits_of_hostSide {arg : Value} {side : HostSide} {content : Tensor}
    (hside : hostSide arg false = .ok side) (hform : form content = form side.tensor) :
    ReadBack.Fits ⟨side, content⟩ arg := by
  cases arg with
  | array a =>
      obtain ⟨hsame, hview, htensor⟩ := hostSide_array hside
      obtain ⟨tensor, sharing⟩ := side
      cases htensor
      cases sharing with
      | same =>
          have hdimensioned : dimensioned a.tensor = a.tensor := by
            unfold dimensioned
            split
            · next hempty => exact absurd hempty (hsame rfl)
            · rfl
          exact hform.trans (congrArg form hdimensioned)
      | view => exact ⟨hview rfl, hform⟩
      | separate => trivial
  | atom a =>
      obtain ⟨t, _, hresult⟩ := Steps.bind_ok_iff.mp hside
      cases hresult
      trivial
  | list items =>
      obtain ⟨t, _, hresult⟩ := Steps.bind_ok_iff.mp hside
      cases hresult
      trivial

/-- What is read back is what is in the buffer, wherever it is put. -/
theorem readBack_content {arg : Value} {side : HostSide} {content : Tensor}
    (hside : hostSide arg false = .ok side) (hform : form content = form side.tensor) :
    (readBack arg ⟨side, content⟩).1.value.content = .ofTensor content :=
  (fits_of_hostSide hside hform).content_eq

end HostSides

section Operations

/-- The type and the shape of what is in a buffer. -/
def formOf (m : Machine) (number : Nat) : Option (Storage × List Nat) :=
  m.objects.buffers[number]?.map (form ·.content)

/-- No buffer goes, and none changes its type or its shape. -/
def Grows (m t : Machine) : Prop :=
  ∀ number f, formOf m number = some f → formOf t number = some f

theorem Grows.refl (m : Machine) : Grows m m := fun _ _ h => h

theorem Grows.trans {l m t : Machine} (h : Grows l m) (h' : Grows m t) : Grows l t :=
  fun number f hform => h' number f (h number f hform)

theorem launching_agree {α : Type} {I : Machine → Prop} {R : α → Machine → Prop}
    {operation : Action Machine (Except String α)}
    (h : Agree I operation operation fun r r' m => r = r' ∧ ∀ a, r = .ok a → R a m) :
    Agree I (launching operation) (launching operation) fun a b m => a = b ∧ R a m := by
  refine .bind h fun r r' => .fixed fun m hr => ?_
  obtain ⟨rfl, hR⟩ := hr
  cases r with
  | error why => exact .throw _
  | ok a => exact .pure fun t ht => ⟨rfl, ht ▸ hR a rfl⟩

/-- A new buffer comes after those that there are. -/
theorem grows_append (m : Machine) (b : Native.Buffer) :
    Grows m { m with objects := { m.objects with buffers := m.objects.buffers ++ [b] } } := by
  intro number f hform
  obtain ⟨buffer, hbuffer, hcontent⟩ := Option.map_eq_some_iff.mp hform
  have hlt := (List.getElem?_eq_some_iff.mp hbuffer).1
  exact Option.map_eq_some_iff.mpr
    ⟨buffer, (List.getElem?_append_left hlt).trans hbuffer, hcontent⟩

theorem effect_form (p : Native.Program) (s : Setup) (kernel : String) (place : Nat) (t : Tensor) :
    form (p.effect s kernel place t) = form t := by
  let work := s.work p.source p.options kernel place
  have hsuccessor : form (s.effect (work.apply t)) = form (work.apply t) := by
    unfold Setup.effect
    split <;> rfl
  exact hsuccessor.trans (Prod.ext (work.storage_eq t) (work.shape_eq t))

/-- A kernel changes what is in the buffers, but neither their types nor their shapes. -/
theorem grows_afterCall (p : Native.Program) (kernel : String) (m : Machine)
    (given : List (Option Nat)) :
    Grows m { m with objects := { m.objects with
      buffers := Native.afterCall (p.effect m.setup kernel) given m.objects.buffers } } := by
  intro number f hform
  obtain ⟨buffer, hbuffer, rfl⟩ := Option.map_eq_some_iff.mp hform
  unfold formOf Native.afterCall
  rw [List.getElem?_mapIdx, hbuffer]
  change some (form (Native.Buffer.content (ite _ _ _))) = _
  split
  · exact congrArg some (effect_form ..)
  · rfl

theorem createBuffer_agree (context : Nat) (access : Native.Access) (content : Tensor)
    (m : Machine) :
    Agree (· = m) (Native.createBuffer context access content)
      (Native.createBuffer context access content) fun r r' t => r = r' ∧
        ∀ number, r = .ok number → Grows m t ∧ formOf t number = some (form content) := by
  refine .state_bind (.state_bind ?_)
  split
  · refine .pure ?_
    rintro t rfl
    exact ⟨rfl, fun number h => nomatch h⟩
  · refine .update_bind (.note_bind (.pure ?_))
    rintro t rfl
    refine ⟨rfl, ?_⟩
    rintro number ⟨⟩
    exact ⟨grows_append m _, congrArg (Option.map _) List.getElem?_concat_length⟩

theorem call_agree (p : Native.Program) (c : Native.Call) (m : Machine) :
    Agree (· = m) (Native.call p c) (Native.call p c) fun r r' t => r = r' ∧
      ∀ a, r = .ok a → Grows m t := by
  refine .note_bind (.state_bind ?_)
  dsimp only
  split
  · refine .pure ?_
    rintro t rfl
    exact ⟨rfl, fun number h => nomatch h⟩
  · refine .update_bind (.pure ?_)
    rintro t rfl
    exact ⟨rfl, fun _ _ => grows_afterCall p c.kernel m _⟩

theorem copy_agree (queue number : Nat) (missing : Tensor) (m : Machine) :
    Agree (· = m) (Native.copy queue number missing) (Native.copy queue number missing)
      fun r r' t => r = r' ∧ ∀ content, r = .ok content →
        t = m ∧ (formOf m number = some (form missing) → form content = form missing) := by
  refine .note_bind (.state_bind ?_)
  split
  · refine .pure ?_
    rintro t rfl
    exact ⟨rfl, fun content h => nomatch h⟩
  · refine .state_bind (.pure ?_)
    rintro t rfl
    refine ⟨rfl, ?_⟩
    rintro content ⟨⟩
    refine ⟨rfl, fun hform => ?_⟩
    obtain ⟨buffer, hbuffer, hcontent⟩ := Option.map_eq_some_iff.mp hform
    rw [hbuffer]
    exact hcontent

theorem createContext_agree (device : Device.Native) (m : Machine) :
    Agree (· = m) (Native.createContext device) (Native.createContext device)
      fun a b _ => a = b :=
  .state_bind (.update_bind (.note_bind (.pure fun _ _ => rfl)))

theorem createQueue_agree (context : Nat) (m : Machine) :
    Agree (· = m) (Native.createQueue context) (Native.createQueue context)
      fun a b _ => a = b :=
  .state_bind (.update_bind (.note_bind (.pure fun _ _ => rfl)))

theorem queueFor_agree (device : Device) (m : Machine) :
    Agree (· = m) (queueFor device) (queueFor device) fun opened opened' _ => opened = opened' := by
  refine .state_bind ?_
  split
  · exact .pure fun _ _ => rfl
  · refine .bind (createContext_agree _ m) fun context context' => .fixed fun t hcontext => ?_
    subst hcontext
    refine .bind (createQueue_agree context t) fun queue queue' => .fixed fun u hqueue => ?_
    subst hqueue
    exact .update_bind (.pure fun _ _ => rfl)

end Operations

section Launches

/-- What becomes of an argument in two launches of the same values: the same
value, or the same buffer with host sides that hold the same. -/
inductive StagedAlike (arg arg' : Value) (readOnly : Bool) : Staged → Staged → Machine → Prop
  | value (v : Value) (m : Machine) : StagedAlike arg arg' readOnly ⟨.value v, none⟩ ⟨.value v, none⟩ m
  | buffer {number : Nat} {side side' : HostSide} {m : Machine}
      (hside : hostSide arg readOnly = .ok side) (hside' : hostSide arg' readOnly = .ok side')
      (tensor : side.tensor = side'.tensor) (form_eq : formOf m number = some (form side.tensor)) :
      StagedAlike arg arg' readOnly ⟨.buffer number, some side⟩ ⟨.buffer number, some side'⟩ m

theorem StagedAlike.later {arg arg' : Value} {readOnly : Bool} {s s' : Staged} {m t : Machine}
    (h : StagedAlike arg arg' readOnly s s' m) (hgrows : Grows m t) :
    StagedAlike arg arg' readOnly s s' t := by
  cases h with
  | value v => exact .value v t
  | buffer hside hside' tensor hform => exact .buffer hside hside' tensor (hgrows _ _ hform)

theorem StagedAlike.argument {arg arg' : Value} {readOnly : Bool} {s s' : Staged} {m : Machine}
    (h : StagedAlike arg arg' readOnly s s' m) : s.argument = s'.argument := by
  cases h with
  | value v => rfl
  | buffer _ _ _ _ => rfl

theorem stage_agree (context : Nat) {arg arg' : Value} (h : arg.content = arg'.content)
    (readOnly : Bool) (m : Machine) :
    Agree (· = m) (stage context arg readOnly) (stage context arg' readOnly) fun s s' t =>
      Grows m t ∧ StagedAlike arg arg' readOnly s s' t := by
  have hvalue : byValue arg readOnly = byValue arg' readOnly := by
    rw [← byValue_content, h, byValue_content]
  have helement : singleElement arg = singleElement arg' := by
    rw [← singleElement_content, h, singleElement_content]
  refine .bind (.lift_eq hvalue) fun single single' => .fixed fun t ht => ?_
  obtain ⟨rfl, rfl⟩ := ht
  split
  · refine .bind (.lift_eq helement) fun v v' => .pure ?_
    rintro u ⟨rfl, rfl⟩
    exact ⟨.refl _, .value v _⟩
  · refine .bind (.lift (R := fun side side' u => hostSide arg readOnly = .ok side ∧
      hostSide arg' readOnly = .ok side' ∧ side.tensor = side'.tensor ∧ u = t) ?_)
      fun side side' => .fixed fun u hu => ?_
    · rcases hostSide_agree h readOnly with herror | ⟨side, side', hside, hside', htensor⟩
      · exact .inl herror
      · exact .inr ⟨side, side', hside, hside', fun u hu => ⟨hside, hside', htensor, hu⟩⟩
    · obtain ⟨hside, hside', htensor, rfl⟩ := hu
      rw [← htensor]
      refine .bind (launching_agree (createBuffer_agree context _ side.tensor u))
        fun number number' => .pure ?_
      rintro v ⟨rfl, hgrows, hform⟩
      exact ⟨hgrows, .buffer hside hside' htensor hform⟩

/-- What is read back for equal values makes results that hold the same. -/
def SettledAlike (arg arg' : Value) (f f' : Option ReadBack) : Prop :=
  (settled arg f).1.value.content = (settled arg' f').1.value.content

theorem fetch_agree (queue : Nat) {arg arg' : Value} (h : arg.content = arg'.content)
    (readOnly : Bool) {s s' : Staged} {m : Machine} (hstaged : StagedAlike arg arg' readOnly s s' m) :
    Agree (· = m) (fetch queue readOnly s) (fetch queue readOnly s') fun f f' t =>
      t = m ∧ SettledAlike arg arg' f f' := by
  cases hstaged with
  | value v =>
      refine .pure ?_
      rintro t rfl
      exact ⟨rfl, h⟩
  | @buffer number side side' _ hside hside' htensor hform =>
      cases readOnly with
      | true =>
          refine .pure ?_
          rintro t rfl
          exact ⟨rfl, h⟩
      | false =>
          unfold fetch
          dsimp only
          rw [if_neg Bool.false_ne_true, if_neg Bool.false_ne_true, ← htensor]
          refine .bind (launching_agree (copy_agree queue number side.tensor m))
            fun content content' => .pure ?_
          rintro t ⟨rfl, rfl, hcontent⟩
          -- No buffer has lost its form since, so the content fits the host side.
          have hread := hcontent hform
          refine ⟨rfl, ?_⟩
          exact (readBack_content hside hread).trans (readBack_content hside' (htensor ▸ hread)).symm

/-- Arguments of the same value, both read only or neither. -/
def SameItem (a b : Value × Bool) : Prop := a.1.content = b.1.content ∧ a.2 = b.2

theorem sameItem_zip {args args' : List Value} (h : args.map Value.content = args'.map Value.content)
    (flags : List Bool) : List.Forall₂ SameItem (args.zip flags) (args'.zip flags) := by
  induction args generalizing args' flags with
  | nil =>
      rw [List.map_eq_nil_iff.mp h.symm]
      exact .nil
  | cons a args ih =>
      obtain ⟨a', args', rfl, ha, hrest⟩ := List.map_eq_cons_iff.mp h.symm
      cases flags with
      | nil => exact .nil
      | cons flag flags => exact .cons ⟨ha.symm, rfl⟩ (ih hrest.symm flags)

/-- What staging comes to for two rows of arguments. -/
def AllStagedAlike (items items' : List (Value × Bool)) (staged staged' : List Staged)
    (m : Machine) : Prop :=
  staged.length = items.length ∧ staged'.length = items'.length ∧
    List.Forall₂ (fun p q => SameItem p.1 q.1 ∧ StagedAlike p.1.1 q.1.1 p.1.2 p.2 q.2 m)
      (items.zip staged) (items'.zip staged')

theorem stageAll_agree (context : Nat) {items items' : List (Value × Bool)}
    (h : List.Forall₂ SameItem items items') (m : Machine) :
    Agree (· = m) (items.mapM fun (arg, readOnly) => stage context arg readOnly)
      (items'.mapM fun (arg, readOnly) => stage context arg readOnly)
      (AllStagedAlike items items') := by
  refine .mono (.mapM Grows.refl (fun _ _ _ => Grows.trans) (Q := SameItem)
    (S := fun a b s s' u => SameItem a b ∧ StagedAlike a.1 b.1 a.2 s s' u)
    (fun _ _ _ _ _ _ hS hgrows => ⟨hS.1, hS.2.later hgrows⟩) ?_ h (.refl m)) (fun _ ht => ht)
    fun _ _ _ hall => hall.2
  rintro ⟨arg, readOnly⟩ ⟨arg', _⟩ ⟨harg, rfl⟩ s _
  exact .mono (stage_agree context harg readOnly s) (fun _ ht => ht)
    fun _ _ _ hstaged => ⟨hstaged.1, ⟨harg, rfl⟩, hstaged.2⟩

theorem fetchAll_agree (queue : Nat) {items items' : List ((Value × Bool) × Staged)}
    {m : Machine} (h : List.Forall₂
      (fun p q => SameItem p.1 q.1 ∧ StagedAlike p.1.1 q.1.1 p.1.2 p.2 q.2 m) items items') :
    Agree (· = m) (items.mapM fun ((_, readOnly), s) => fetch queue readOnly s)
      (items'.mapM fun ((_, readOnly), s) => fetch queue readOnly s) fun out out' _ =>
        out.length = items.length ∧ out'.length = items'.length ∧
          List.Forall₂ (fun p q => SettledAlike p.1.1.1 q.1.1.1 p.2 q.2)
            (items.zip out) (items'.zip out') := by
  refine .mono (.mapM (L := fun s t => t = s) (fun _ => rfl) (fun _ _ _ h h' => h'.trans h)
    (S := fun (p q : (Value × Bool) × Staged) f f' _ => SettledAlike p.1.1 q.1.1 f f')
    (fun _ _ _ _ _ _ hS _ => hS) ?_ h rfl) (fun _ ht => ht) fun _ _ _ hall => hall.2
  rintro ⟨⟨arg, readOnly⟩, staged⟩ ⟨⟨arg', _⟩, staged'⟩ ⟨⟨harg, rfl⟩, hstaged⟩ s rfl
  exact fetch_agree queue harg readOnly hstaged

/-- What is read back in two launches of the same values makes results that hold the same. -/
theorem transfer_agree {r r' : RunRequest} (h : r.content = r'.content) (m : Machine) :
    Agree (· = m) (transfer r) (transfer r') fun fetched fetched' _ =>
      (replyFor r.args fetched).contents = (replyFor r'.args fetched').contents := by
  obtain ⟨device, name, launch, block, args, readOnly⟩ := r
  obtain ⟨device', name', launch', block', args', readOnly'⟩ := r'
  have hargs : args.map Value.content = args'.map Value.content := congrArg RunRequest.args h
  have hflags : readOnly = readOnly' := congrArg RunRequest.readOnly h
  have hdevice : device = device' := congrArg RunRequest.device h
  have hname : name = name' := congrArg RunRequest.name h
  have hlaunch : launch = launch' := congrArg RunRequest.launch h
  have hblock : block = block' := congrArg RunRequest.block h
  -- The two requests have nothing but their arguments of their own now.
  subst hflags hdevice hname hlaunch hblock
  refine .state_bind ?_
  dsimp only
  split
  · exact .throw _
  · refine .bind (queueFor_agree device m) fun opened opened' => .fixed fun t hopened => ?_
    subst hopened
    refine .bind (stageAll_agree _ (sameItem_zip hargs readOnly) t)
      fun staged staged' => .fixed fun u hstaged => ?_
    obtain ⟨hlength, hlength', hall⟩ := hstaged
    have harguments : staged.map (·.argument) = staged'.map (·.argument) :=
      map_eq_of_zip hall hlength hlength' fun _ _ hpair => hpair.2.argument
    rw [← harguments]
    refine .bind (launching_agree (call_agree _ _ u)) fun _ _ => .fixed fun v hcall => ?_
    refine .bind (fetchAll_agree opened.2 (hall.imp fun _ _ hpair =>
      ⟨hpair.1, hpair.2.later hcall.2⟩)) fun fetched fetched' => ?_
    refine .note_bind (.pure fun _ hfetched => ?_)
    obtain ⟨hcount, hcount', hsettled⟩ := hfetched
    have hcontents : ((((args.zip readOnly).zip staged).zip fetched).map fun p =>
        (settled p.1.1.1 p.2).1.value.content) =
        (((args'.zip readOnly).zip staged').zip fetched').map fun p =>
          (settled p.1.1.1 p.2).1.value.content := by
      rw [← List.forall₂_eq_eq_eq, List.forall₂_map_left_iff, List.forall₂_map_right_iff]
      exact hsettled
    unfold Reply.contents
    rw [replyFor_results, replyFor_results, List.map_zipWith, List.map_zipWith, zipWith_handed _ hcount, zipWith_handed _ hcount']
    exact hcontents

/-- Two launches of the same values agree on the results, argument by argument. -/
theorem run_agree {r r' : RunRequest} (h : r.content = r'.content) (m : Machine) :
    Agree (· = m) (run r) (run r') fun reply reply' _ => reply.contents = reply'.contents := by
  rw [run_eq, run_eq, map_eq_pure_bind, map_eq_pure_bind]
  exact .bind (transfer_agree h m) fun _ _ => .pure fun _ hcontents => hcontents

end Launches

end OpenCL

theorem openCL_runsByValue : openCL.RunsByValue := by
  intro r r' w w' hrequest hstate
  rcases OpenCL.run_agree hrequest w.state w w' hstate rfl with
    ⟨e, hrun, hrun'⟩ | ⟨reply, reply', hrun, hrun', _, hcontents⟩
  · change Except.map _ ((OpenCL.run r).perform w).1 = Except.map _ ((OpenCL.run r').perform w').1
    rw [hrun, hrun']
  · change Except.map _ ((OpenCL.run r).perform w).1 = Except.map _ ((OpenCL.run r').perform w').1
    rw [hrun, hrun']
    exact congrArg Except.ok hcontents

end KernelLaunch.Backend
