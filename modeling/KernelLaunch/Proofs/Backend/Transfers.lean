import KernelLaunch.Proofs.Backend.Faults
import KernelLaunch.Proofs.Backend.NativeByValue
import KernelLaunch.Proofs.Host.Collect
import KernelLaunch.Proofs.Kernel.Rebuilding

/-!
Data transfers of a launch. Read-only arguments of one element are passed by value, every
other one through a buffer of its own. The kernel is called once, after all buffers are
filled and before any is copied back, and each buffer that is not read only is copied back.
-/

namespace KernelLaunch.Backend.OpenCL

open Host

section Conversions

/-- The one element of a value: an element of the storage type of the value, or what the
value consists of if it has none. -/
inductive Element (arg : Value) : Value → Prop where
  | stored {t : Tensor} {e : t.storage.Elem} (collected : arg.collect = .ok t)
      (cells : t.grid.cells = [e]) : Element arg (.atom (.element t.storage e))
  | other {g : Grid Leaf} {leaf : Leaf} (leaves : arg.leaves = .ok g) (cells : g.cells = [leaf])
      (unstored : arg.collect = .error .wrongKind) : Element arg (.atom leaf.atom)

/-- All elements of a value row by row, in its storage type. -/
def Rows (arg : Value) (tensor : Tensor) : Prop :=
  ∃ t g, arg.collect = .ok t ∧ tensor = ⟨t.storage, g⟩ ∧ g.cells = t.grid.cells

/-- Memory that may be written to: an array that allows it, or a copy. -/
def Writable (arg : Value) (sharing : Sharing) : Prop :=
  sharing = .separate ∨ ∃ a, arg = .array a ∧ a.readOnly = false

variable {arg : Value} {readOnly : Bool}

theorem passage_value {v : Value} (h : passage arg readOnly = .ok (.value v)) :
    readOnly = true ∧ arg.isSingle = .ok true ∧ singleElement arg = .ok v := by
  obtain ⟨single, hbyValue, h⟩ := Steps.bind_ok_iff.mp h
  cases single with
  | false =>
      obtain ⟨host, _, h⟩ := Steps.bind_ok_iff.mp h
      cases h
  | true =>
      obtain ⟨element, helement, h⟩ := Steps.bind_ok_iff.mp h
      cases h
      cases readOnly with
      | false => cases hbyValue
      | true => exact ⟨rfl, hbyValue, helement⟩

theorem passage_buffer {host : HostSide} (h : passage arg readOnly = .ok (.buffer host)) :
    (readOnly = true → arg.isSingle = .ok false) ∧ hostSide arg readOnly = .ok host := by
  obtain ⟨single, hbyValue, h⟩ := Steps.bind_ok_iff.mp h
  cases single with
  | true =>
      obtain ⟨element, _, h⟩ := Steps.bind_ok_iff.mp h
      cases h
  | false =>
      obtain ⟨side, hside, h⟩ := Steps.bind_ok_iff.mp h
      cases h
      refine ⟨?_, hside⟩
      rintro rfl
      exact hbyValue

theorem size_of_single {g : Grid Leaf} (hsingle : arg.isSingle = .ok true)
    (hleaves : arg.leaves = .ok g) : g.size = 1 := by
  rw [Value.isSingle, hleaves] at hsingle
  exact eq_of_beq (Except.ok.inj hsingle)

theorem cells_of_single {g : Grid Leaf} {s : Storage} {t : Tensor}
    (hsingle : arg.isSingle = .ok true) (hleaves : arg.leaves = .ok g)
    (h : arg.collectAs s = .ok t) : t.grid.cells.length = 1 := by
  rw [t.grid.count, ← size_of_single hsingle hleaves]
  exact congrArg volume (Value.collectAs_shape hleaves h)

theorem singleElement_element {v : Value} (hsingle : arg.isSingle = .ok true)
    (h : singleElement arg = .ok v) : Element arg v := by
  obtain ⟨g, hleaves, h⟩ := Steps.bind_ok_iff.mp h
  split at h
  · next s hkind =>
    obtain ⟨t, ht, h⟩ := Steps.bind_ok_iff.mp h
    obtain ⟨e, he⟩ := List.length_eq_one_iff.mp (cells_of_single hsingle hleaves ht)
    rw [he] at h
    cases h
    refine .stored ?_ he
    rw [Value.collect_of_leaves hleaves, hkind]
    exact ht
  · next hkind =>
    obtain ⟨leaf, hleaf⟩ :=
      List.length_eq_one_iff.mp (g.count.trans (size_of_single hsingle hleaves))
    rw [hleaf] at h
    cases h
    refine .other hleaves hleaf ?_
    rw [Value.collect_of_leaves hleaves]
    split
    · next s hstored => exact absurd hstored (hkind s)
    · rfl

theorem hostSide_rows {host : HostSide} (h : hostSide arg readOnly = .ok host) :
    Rows arg host.tensor := by
  obtain ⟨t, ht, htensor⟩ := hostSide_collect h
  rw [htensor]
  unfold dimensioned
  split
  · exact ⟨t, t.grid.flat, ht, rfl, rfl⟩
  · exact ⟨t, t.grid, ht, rfl, rfl⟩

theorem hostSide_writable {host : HostSide} (h : hostSide arg false = .ok host) :
    Writable arg host.sharing := by
  cases arg with
  | array a =>
      cases h
      cases hreadOnly : a.readOnly with
      | true => exact .inl rfl
      | false => exact .inr ⟨a, rfl, hreadOnly⟩
  | atom | list =>
      obtain ⟨_, _, h⟩ := Steps.bind_ok_iff.mp h
      cases h
      exact .inl rfl

end Conversions

section Operations

/-- A world with more buffers, which have been noted. -/
def withBuffers (w : World Machine) (made : List Native.Buffer) (notes : List Note) :
    World Machine :=
  { state := { w.state with objects :=
      { w.state.objects with buffers := w.state.objects.buffers ++ made } },
    notes := w.notes ++ notes }

/-- A world in which a program has been called. -/
def withCall (w : World Machine) (p : Native.Program) (c : Native.Call) : World Machine :=
  { state := { w.state with objects := { w.state.objects with
      buffers := Native.afterCall (p.effect w.state.setup c.kernel)
        (c.arguments.map Native.Argument.buffer?) w.state.objects.buffers } },
    notes := w.notes ++ [.native (.call c)] }

variable {w after : World Machine}

theorem withBuffers_nil (w : World Machine) : withBuffers w [] [] = w := by
  simp [withBuffers]

theorem withBuffers_append (w : World Machine) (made later : List Native.Buffer)
    (notes more : List Note) : withBuffers (withBuffers w made notes) later more =
      withBuffers w (made ++ later) (notes ++ more) := by
  simp [withBuffers, List.append_assoc]

theorem createBuffer_ok {context number : Nat} {access : Native.Access} {content : Tensor}
    (h : (Native.createBuffer context access content).perform w = (.ok (.ok number), after)) :
    number = w.state.objects.buffers.length ∧ after = withBuffers w [⟨access, content⟩]
      [.native (.buffer w.state.objects.buffers.length context access content)] := by
  unfold Native.createBuffer at h
  simp only [Action.perform_bind, Action.perform_state] at h
  cases hwhy : w.state.setup.bufferError w.state.objects.buffers.length with
  | some why =>
      rw [hwhy] at h
      cases h
  | none =>
      rw [hwhy] at h
      cases h
      exact ⟨rfl, rfl⟩

theorem call_ok {p : Native.Program} {c : Native.Call}
    (h : (Native.call p c).perform w = (.ok (.ok ()), after)) : after = withCall w p c := by
  unfold Native.call at h
  simp only [Action.perform_bind, Action.perform_note, Action.perform_state] at h
  cases hwhy : w.state.setup.runError with
  | some why =>
      rw [hwhy] at h
      cases h
  | none =>
      rw [hwhy] at h
      cases h
      rfl

theorem copy_ok {queue number : Nat} {missing content : Tensor}
    (h : (Native.copy queue number missing).perform w = (.ok (.ok content), after)) :
    after = { w with notes := w.notes ++ [.native (.copy queue number)] } ∧
      ∀ b, w.state.objects.buffers[number]? = some b → content = b.content := by
  unfold Native.copy at h
  simp only [Action.perform_bind, Action.perform_note, Action.perform_state] at h
  cases hwhy : w.state.setup.copyError number with
  | some why =>
      rw [hwhy] at h
      cases h
  | none =>
      rw [hwhy] at h
      cases h
      refine ⟨rfl, fun b hb => ?_⟩
      rw [hb]
      rfl

end Operations

section Arrangements

/-- Arguments handed over in a context, with buffers that are numbered one after the other:
what has become of each, and the buffers with their notes. -/
inductive Arranged (context : Nat) :
    Nat → List (Value × Bool) → List Staged → List Native.Buffer → List Note → Prop where
  | nil (n : Nat) : Arranged context n [] [] [] []
  | value {n : Nat} {arg v : Value} {items : List (Value × Bool)} {staged : List Staged}
      {made : List Native.Buffer} {notes : List Note}
      (needed : passage arg true = .ok (.value v))
      (rest : Arranged context n items staged made notes) :
      Arranged context n ((arg, true) :: items) (⟨.value v, none⟩ :: staged) made notes
  | buffer {n : Nat} {arg : Value} {readOnly : Bool} {host : HostSide}
      {items : List (Value × Bool)} {staged : List Staged} {made : List Native.Buffer}
      {notes : List Note} (needed : passage arg readOnly = .ok (.buffer host))
      (rest : Arranged context (n + 1) items staged made notes) :
      Arranged context n ((arg, readOnly) :: items) (⟨.buffer n, some host⟩ :: staged)
        (⟨accessFor readOnly, host.tensor⟩ :: made)
        (.native (.buffer n context (accessFor readOnly) host.tensor) :: notes)

variable {context : Nat} {items : List (Value × Bool)} {staged : List Staged}

/-- What is done for one argument comes before what is done for the others. -/
theorem stage_arranged {arg : Value} {readOnly : Bool} {w after : World Machine} {s : Staged}
    (h : (stage context arg readOnly).perform w = (.ok s, after)) :
    ∃ made notes, after = withBuffers w made notes ∧ ∀ items staged later more,
      Arranged context (w.state.objects.buffers.length + made.length) items staged later more →
      Arranged context w.state.objects.buffers.length ((arg, readOnly) :: items) (s :: staged)
        (made ++ later) (notes ++ more) := by
  cases hpassage : passage arg readOnly with
  | error e =>
      rw [stage_eq, Action.perform_bind, Action.perform_lift, hpassage] at h
      cases h
  | ok p =>
      rw [stage_of_passage hpassage] at h
      cases p with
      | value v =>
          obtain ⟨rfl, -, -⟩ := passage_value hpassage
          cases h
          exact ⟨[], [], (withBuffers_nil w).symm, fun _ _ _ _ hrest => .value hpassage hrest⟩
      | buffer host =>
          obtain ⟨number, created, hcreate, h⟩ := Action.perform_bind_ok_iff.mp h
          cases h
          obtain ⟨rfl, rfl⟩ := createBuffer_ok (launching_ok_iff.mp hcreate)
          exact ⟨_, _, rfl, fun _ _ _ _ hrest => .buffer hpassage hrest⟩

theorem stageAll_arranged {w after : World Machine}
    (h : (stageAll context items).perform w = (.ok staged, after)) :
    ∃ made notes, Arranged context w.state.objects.buffers.length items staged made notes ∧
      after = withBuffers w made notes := by
  induction items generalizing w staged with
  | nil =>
      cases h
      exact ⟨[], [], .nil _, (withBuffers_nil _).symm⟩
  | cons item items ih =>
      obtain ⟨arg, readOnly⟩ := item
      rw [stageAll_cons] at h
      obtain ⟨s, next, hfirst, h⟩ := Action.perform_bind_ok_iff.mp h
      obtain ⟨others, last, hrest, h⟩ := Action.perform_bind_ok_iff.mp h
      cases h
      obtain ⟨made, notes, rfl, hfront⟩ := stage_arranged hfirst
      obtain ⟨later, more, harranged, rfl⟩ := ih hrest
      have hlength : (withBuffers w made notes).state.objects.buffers.length =
          w.state.objects.buffers.length + made.length := List.length_append
      rw [hlength] at harranged
      exact ⟨_, _, hfront _ _ _ _ harranged, withBuffers_append ..⟩

/-- The buffers given to a program are those that have been created for its arguments. -/
theorem Arranged.given {n : Nat} {made : List Native.Buffer} {notes : List Note}
    (h : Arranged context n items staged made notes) :
    (staged.map (·.argument)).filterMap Native.Argument.buffer? = List.range' n made.length := by
  induction h with
  | nil => rfl
  | value _ _ ih => exact ih
  | buffer _ _ ih => exact congrArg (List.cons _) ih

/-- What has been handed over could be converted. -/
theorem Arranged.fit {n : Nat} {made : List Native.Buffer} {notes : List Note}
    (h : Arranged context n items staged made notes) :
    ∀ item ∈ items, ∃ p, passage item.1 item.2 = .ok p := by
  induction h with
  | nil => nofun
  | value needed _ ih => exact List.forall_mem_cons.mpr ⟨⟨_, needed⟩, ih⟩
  | buffer needed _ ih => exact List.forall_mem_cons.mpr ⟨⟨_, needed⟩, ih⟩

/-- The buffer of an argument is the one that has been created for it. -/
theorem Arranged.held {n : Nat} {made : List Native.Buffer} {notes : List Note}
    (h : Arranged context n items staged made notes) :
    ∀ p ∈ items.zip staged, ∀ number host, p.2 = ⟨.buffer number, some host⟩ →
      ∃ i, number = n + i ∧ made[i]? = some ⟨accessFor p.1.2, host.tensor⟩ := by
  induction h with
  | nil => nofun
  | value _ _ ih => exact List.forall_mem_cons.mpr ⟨nofun, ih⟩
  | buffer _ _ ih =>
      refine List.forall_mem_cons.mpr ⟨?_, fun p hp number host hs => ?_⟩
      · rintro _ _ ⟨⟩
        exact ⟨0, rfl, rfl⟩
      · obtain ⟨i, hnumber, hmade⟩ := ih p hp number host hs
        exact ⟨i + 1, hnumber.trans (by omega), hmade⟩

/-- A buffer that is given once is found in its place. -/
theorem idxOf_given {given : List (Option Nat)} (distinct : (given.filterMap id).Nodup)
    {place number : Nat} (h : given[place]? = some (some number)) :
    given.idxOf (some number) = place := by
  induction given generalizing place with
  | nil => cases h
  | cons first given ih =>
      cases place with
      | zero =>
          cases h
          exact List.idxOf_cons_self
      | succ place =>
          have hmem : number ∈ given.filterMap id :=
            List.mem_filterMap.mpr ⟨_, List.mem_of_getElem? h, rfl⟩
          have hrest : (given.filterMap id).Nodup := by
            cases first with
            | none => exact distinct
            | some _ => exact (List.nodup_cons.mp distinct).2
          have hne : first ≠ some number := by
            rintro rfl
            exact (List.nodup_cons.mp distinct).1 hmem
          rw [List.idxOf_cons_ne _ hne, ih hrest h]

/-- The buffers of arguments, from a place on, as they are once a kernel has run. -/
def Ran (effect : Nat → Tensor → Tensor) (place : Nat) (items : List (Value × Bool))
    (staged : List Staged) (buffers : List Native.Buffer) : Prop :=
  ∀ p ∈ (items.zip staged).zipIdx place, ∀ number host, p.1.2 = ⟨.buffer number, some host⟩ →
    buffers[number]? =
      some ⟨accessFor p.1.1.2, if p.1.1.2 then host.tensor else effect p.2 host.tensor⟩

theorem ran_afterCall (effect : Nat → Tensor → Tensor) {old made : List Native.Buffer}
    {notes : List Note} (h : Arranged context old.length items staged made notes) :
    Ran effect 0 items staged (Native.afterCall effect
      ((staged.map (·.argument)).map Native.Argument.buffer?) (old ++ made)) := by
  rintro ⟨⟨⟨arg, readOnly⟩, s⟩, place⟩ hp number host rfl
  have hpair := List.mem_zipIdx_iff_getElem?.mp hp
  obtain ⟨i, rfl, hmade⟩ := h.held _ (List.mem_of_getElem? hpair) number host rfl
  have hplace : ((staged.map (·.argument)).map Native.Argument.buffer?)[place]? =
      some (some (old.length + i)) := by
    rw [List.getElem?_map, List.getElem?_map, (List.getElem?_zip_eq_some.mp hpair).2]
    rfl
  have hdistinct :
      (((staged.map (·.argument)).map Native.Argument.buffer?).filterMap id).Nodup := by
    rw [List.filterMap_map]
    exact h.given ▸ List.nodup_range'
  have hgiven := List.elem_eq_true_of_mem (List.mem_of_getElem? hplace)
  unfold Native.afterCall
  rw [List.getElem?_mapIdx, List.getElem?_append_right (Nat.le_add_right ..),
    Nat.add_sub_cancel_left, hmade, Option.map_some, List.contains, hgiven,
    idxOf_given hdistinct hplace]
  cases readOnly <;> rfl

end Arrangements

section Launches

/-- The transfer of one argument: how it is passed, the native calls before and after the
kernel call, and what is copied back. -/
structure Transfer where
  arg : Value
  readOnly : Bool
  /-- What is handed to the program. -/
  argument : Native.Argument
  /-- What is noted before the program is called. -/
  created : List Note
  /-- What is noted after the program has been called. -/
  copied : List Note
  /-- What is read back, and the host side that it goes into. -/
  fetched : Option ReadBack

/-- A transfer is by value, through a read-only buffer, or through a read-write buffer that is
copied back. `buffers` are the contents of all buffers after the kernel call. -/
inductive Transfer.Made (effect : Tensor → Tensor) (context queue : Nat)
    (buffers : List Native.Buffer) : Transfer → Prop where
  | value {arg v : Value} (single : arg.isSingle = .ok true) (element : Element arg v) :
      Made effect context queue buffers ⟨arg, true, .value v, [], [], none⟩
  | input {arg : Value} {number : Nat} {content : Tensor} (several : arg.isSingle = .ok false)
      (rows : Rows arg content) :
      Made effect context queue buffers ⟨arg, true, .buffer number,
        [.native (.buffer number context .readOnly content)], [], none⟩
  | output {arg : Value} {number : Nat} {host : HostSide} {content : Tensor}
      (rows : Rows arg host.tensor) (held : buffers[number]? = some ⟨.readWrite, content⟩)
      (ran : content = effect host.tensor) (into : Writable arg host.sharing)
      (fits : ReadBack.Fits ⟨host, content⟩ arg) :
      Made effect context queue buffers ⟨arg, false, .buffer number,
        [.native (.buffer number context .readWrite host.tensor)], [.native (.copy queue number)],
        some ⟨host, content⟩⟩

/-- The content that a launch copies back for an argument: none if it is read only, else its
host side as the kernel has changed it. Fails if the argument cannot be converted. -/
def expected (effect : Tensor → Tensor) (arg : Value) (readOnly : Bool) :
    Except Failure (Option ReadBack) := do
  match ← passage arg readOnly with
  | .value _ => return none
  | .buffer host => return if readOnly then none else some ⟨host, effect host.tensor⟩

/-- What a launch reads back for arguments from a place on. -/
def expectedAll (effect : Nat → Tensor → Tensor) (place : Nat) (items : List (Value × Bool)) :
    Except Failure (List (Option ReadBack)) :=
  (items.zipIdx place).mapM fun p => expected (effect p.2) p.1.1 p.1.2

theorem expected_of_unfit {effect : Tensor → Tensor} {arg : Value} {readOnly : Bool} {e : Failure}
    (h : passage arg readOnly = .error e) : expected effect arg readOnly = .error e := by
  rw [expected, h]
  rfl

theorem expected_of_fit {arg : Value} {readOnly : Bool} {p : Passage}
    (h : passage arg readOnly = .ok p) (effect : Tensor → Tensor) :
    ∃ f, expected effect arg readOnly = .ok f := by
  rw [expected, h]
  cases p with
  | value v => exact ⟨_, rfl⟩
  | buffer host => exact ⟨_, rfl⟩

theorem expectedAll_of_unfit (effect : Nat → Tensor → Tensor) {earlier later : List (Value × Bool)}
    {arg : Value} {readOnly : Bool} {e : Failure}
    (hearlier : ∀ item ∈ earlier, ∃ p, passage item.1 item.2 = .ok p)
    (h : passage arg readOnly = .error e) (place : Nat) :
    expectedAll effect place (earlier ++ (arg, readOnly) :: later) = .error e := by
  have hfits : ∀ p ∈ earlier.zipIdx place, ∃ f, expected (effect p.2) p.1.1 p.1.2 = .ok f :=
    fun p hp => (hearlier p.1 (List.fst_mem_of_mem_zipIdx hp)).elim
      fun _ hpassage => expected_of_fit hpassage _
  obtain ⟨out, hout⟩ := Steps.exists_forall₂ hfits
  unfold expectedAll
  rw [List.zipIdx_append, List.zipIdx_cons]
  exact Steps.mapM_stops (Steps.mapM_ok_iff.mpr hout) (expected_of_unfit h)

/-- The arguments of a launch from a place on have been transferred when all is read back. -/
structure Transferred (effect : Nat → Tensor → Tensor) (context queue place : Nat)
    (w : World Machine) (items : List (Value × Bool)) (staged : List Staged) (notes : List Note)
    (fetched : List (Option ReadBack)) (after : World Machine) (transfers : List Transfer) :
    Prop where
  items_eq : transfers.map (fun t => (t.arg, t.readOnly)) = items
  made : ∀ p ∈ transfers.zipIdx place,
    p.1.Made (effect p.2) context queue w.state.objects.buffers
  arguments_eq : transfers.map (·.argument) = staged.map (·.argument)
  created_eq : transfers.flatMap (·.created) = notes
  fetched_eq : transfers.map (·.fetched) = fetched
  expected_eq : expectedAll effect place items = .ok fetched
  after_eq : after = { w with notes := w.notes ++ transfers.flatMap (·.copied) }

variable {effect : Nat → Tensor → Tensor} {context queue place : Nat}

theorem Transferred.nil (w : World Machine) :
    Transferred effect context queue place w [] [] [] [] w [] where
  items_eq := rfl
  made _ h := absurd h List.not_mem_nil
  arguments_eq := rfl
  created_eq := rfl
  fetched_eq := rfl
  expected_eq := rfl
  after_eq := (congrArg (World.mk _) (List.append_nil _)).symm

/-- One argument comes before the others. -/
theorem Transferred.cons {t : Transfer} {s : Staged} {w after : World Machine}
    {items : List (Value × Bool)} {staged : List Staged} {notes : List Note}
    {fetched : List (Option ReadBack)} {ts : List Transfer}
    (made : t.Made (effect place) context queue w.state.objects.buffers)
    (hexpected : expected (effect place) t.arg t.readOnly = .ok t.fetched)
    (hargument : t.argument = s.argument)
    (rest : Transferred effect context queue (place + 1)
      { w with notes := w.notes ++ t.copied } items staged notes fetched after ts) :
    Transferred effect context queue place w ((t.arg, t.readOnly) :: items) (s :: staged)
      (t.created ++ notes) (t.fetched :: fetched) after (t :: ts) where
  items_eq := congrArg (List.cons _) rest.items_eq
  made := by
    rw [List.zipIdx_cons]
    exact List.forall_mem_cons.mpr ⟨made, rest.made⟩
  arguments_eq := congr (congrArg List.cons hargument) rest.arguments_eq
  created_eq := congrArg (t.created ++ ·) rest.created_eq
  fetched_eq := congrArg (List.cons _) rest.fetched_eq
  expected_eq := by
    have hrest := rest.expected_eq
    unfold expectedAll at hrest ⊢
    rw [List.zipIdx_cons, List.mapM_cons, hexpected, hrest]
    rfl
  after_eq := by rw [rest.after_eq, List.flatMap_cons, List.append_assoc]

theorem fetchAll_transferred {n : Nat} {items : List (Value × Bool)} {staged : List Staged}
    {made : List Native.Buffer} {notes : List Note}
    (harranged : Arranged context n items staged made notes) {w after : World Machine}
    {fetched : List (Option ReadBack)} (hform : ∀ place t, form (effect place t) = form t)
    (hran : Ran effect place items staged w.state.objects.buffers)
    (h : (fetchAll queue (items.zip staged)).perform w = (.ok fetched, after)) :
    ∃ transfers,
      Transferred effect context queue place w items staged notes fetched after transfers := by
  induction harranged generalizing w place fetched with
  | nil n =>
      cases h
      exact ⟨[], .nil _⟩
  | @value n arg v items staged made notes needed rest ih =>
      obtain ⟨-, hrest⟩ := List.forall_mem_cons.mp hran
      rw [List.zip_cons_cons, fetchAll_cons] at h
      obtain ⟨f, next, hfetch, h⟩ := Action.perform_bind_ok_iff.mp h
      obtain ⟨others, last, hothers, h⟩ := Action.perform_bind_ok_iff.mp h
      cases h
      cases hfetch
      obtain ⟨ts, htransferred⟩ := ih hrest hothers
      obtain ⟨-, single, element⟩ := passage_value needed
      refine ⟨⟨arg, true, .value v, [], [], none⟩ :: ts, .cons
        (.value single (singleElement_element single element)) ?_ rfl ?_⟩
      · rw [expected, needed]
        rfl
      · rw [List.append_nil]
        exact htransferred
  | @buffer n arg readOnly host items staged made notes needed rest ih =>
      obtain ⟨hfirst, hrest⟩ := List.forall_mem_cons.mp hran
      obtain ⟨hsingle, hside⟩ := passage_buffer needed
      rw [List.zip_cons_cons, fetchAll_cons] at h
      obtain ⟨f, next, hfetch, h⟩ := Action.perform_bind_ok_iff.mp h
      obtain ⟨others, last, hothers, h⟩ := Action.perform_bind_ok_iff.mp h
      cases h
      cases readOnly with
      | true =>
          cases hfetch
          obtain ⟨ts, htransferred⟩ := ih hrest hothers
          refine ⟨⟨arg, true, .buffer n, [.native (.buffer n context .readOnly host.tensor)], [],
            none⟩ :: ts, .cons (.input (hsingle rfl) (hostSide_rows hside)) ?_ rfl ?_⟩
          · rw [expected, needed]
            rfl
          · rw [List.append_nil]
            exact htransferred
      | false =>
          have held : w.state.objects.buffers[n]? = some ⟨.readWrite, effect place host.tensor⟩ :=
            hfirst n host rfl
          obtain ⟨content, copied, hcopy, hfetch⟩ := Action.perform_bind_ok_iff.mp hfetch
          cases hfetch
          obtain ⟨rfl, hheld⟩ := copy_ok (launching_ok_iff.mp hcopy)
          obtain rfl : content = effect place host.tensor := hheld _ held
          obtain ⟨ts, htransferred⟩ :=
            ih (w := { w with notes := w.notes ++ [.native (.copy queue n)] }) hrest hothers
          refine ⟨⟨arg, false, .buffer n, [.native (.buffer n context .readWrite host.tensor)],
            [.native (.copy queue n)], some ⟨host, effect place host.tensor⟩⟩ :: ts,
            .cons (.output (hostSide_rows hside) held rfl (hostSide_writable hside)
              (fits_of_hostSide hside (hform place host.tensor))) ?_ rfl htransferred⟩
          rw [expected, needed]
          rfl

theorem queueFor_buffers {device : Device} {w before : World Machine} {opened : Nat × Nat}
    (h : (queueFor device).perform w = (.ok opened, before)) :
    before.state.objects.buffers = w.state.objects.buffers := by
  unfold queueFor at h
  rw [Action.perform_bind, Action.perform_state] at h
  dsimp only at h
  cases hopen : w.state.openCL.queues.lookup device.index with
  | some opened' =>
      rw [hopen] at h
      cases h
      rfl
  | none =>
      rw [hopen] at h
      cases h
      rfl

/-- The transfers of a launch whose parts have all gone well. -/
theorem transferred_of_parts {request : RunRequest} {w before reached answered left : World Machine}
    {program : Native.Program} {opened : Nat × Nat} {staged : List Staged}
    {fetched : List (Option ReadBack)}
    (reach : HandsOver request w (flagged request) program opened before staged reached)
    (answers : (Native.call program (callOf request program opened.2 staged)).perform reached =
      (.ok (.ok ()), answered))
    (fetches : (fetchAll opened.2 ((flagged request).zip staged)).perform answered =
      (.ok fetched, left)) :
    ∃ opening made notes transfers, Opened request.device w opened opening before ∧
      answered =
        withCall (withBuffers before made notes) program (callOf request program opened.2 staged) ∧
      (staged.map (·.argument)).filterMap Native.Argument.buffer? =
        List.range' w.state.objects.buffers.length made.length ∧
      Transferred (program.effect w.state.setup request.name) opened.1 opened.2 0 answered
        (flagged request) staged notes fetched left transfers := by
  obtain ⟨opened', opening, before', opens, hopened⟩ := queueFor_perform request.device w
  cases reach.opens.symm.trans opens
  obtain ⟨made, notes, harranged, rfl⟩ := stageAll_arranged reach.handed
  obtain rfl := call_ok answers
  have hran : Ran (program.effect w.state.setup request.name) 0 (flagged request) staged
      (withCall (withBuffers before made notes) program
        (callOf request program opened.2 staged)).state.objects.buffers := by
    have hafter := ran_afterCall (program.effect w.state.setup request.name) harranged
    rw [← hopened.setup_eq] at hafter ⊢
    exact hafter
  obtain ⟨transfers, htransferred⟩ := fetchAll_transferred harranged
    (effect_form program w.state.setup request.name) hran fetches
  refine ⟨opening, made, notes, transfers, hopened, rfl, ?_, htransferred⟩
  rw [harranged.given, queueFor_buffers opens]

/-- Without a native failure, the outcome of a launch is a function of its arguments and of
the effect of the kernel in its program. -/
theorem run_outcome {request : RunRequest} {w : World Machine} {program : Native.Program}
    (known : w.state.openCL.programs.lookup (request.device.index, request.name) = some program)
    (sound : ∀ why, ¬ NativeFault request w why) :
    ((run request).perform w).1 =
      (expectedAll (program.effect w.state.setup request.name) 0 (flagged request)).map
        (replyFor request.args) := by
  rw [run_perform_eq]
  refine congrArg (Except.map _) ?_
  rcases transfer_cases known with ⟨why, hfault⟩ |
    ⟨earlier, arg, readOnly, later, opened, before, staged, reached, e, failed, reach, args, hunfit,
      htransfer⟩ |
    ⟨opened, before, staged, reached, answered, fetched, left, reach, answers, fetches, htransfer⟩
  · exact absurd hfault (sound why)
  · obtain ⟨_, _, harranged, -⟩ := stageAll_arranged reach.handed
    rw [htransfer, args, expectedAll_of_unfit _ harranged.fit hunfit]
  · obtain ⟨_, _, _, _, _, _, _, htransferred⟩ := transferred_of_parts reach answers fetches
    rw [htransfer, htransferred.expected_eq]

/-- A kernel that puts a number into all elements that it may write. -/
def filling (n : BitVec 32) : Effect where
  apply t := ⟨t.storage, t.grid.map fun _ => Storage.convert (.integer true .word) t.storage n⟩
  storage_eq _ := rfl
  shape_eq _ := rfl

end Launches

end KernelLaunch.Backend.OpenCL
