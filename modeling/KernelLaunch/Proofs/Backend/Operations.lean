import KernelLaunch.Proofs.Action
import KernelLaunch.Proofs.Backend.Apart
import KernelLaunch.Proofs.Except

/-!
Requests to the OpenCL backend, operation by operation. The context and queue of a device
are opened once; a launch then stages its arguments one after the other, calls one kernel
and copies the buffers back. The possible outcomes of compile and launch requests are listed
in full, with all native calls they log.
-/

namespace KernelLaunch.Backend.OpenCL

open Host

/-- Notes have been added, and all that a backend keeps is as it was. -/
structure Adds (w : World Machine) (added : List Note) (after : World Machine) : Prop where
  setup : after.state.setup = w.state.setup
  openCL : after.state.openCL = w.state.openCL
  programs : after.state.objects.programs = w.state.objects.programs
  notes : after.notes = w.notes ++ added

namespace Adds

variable {w v u : World Machine} {added later : List Note}

theorem nil (w : World Machine) : Adds w [] w := ⟨rfl, rfl, rfl, (List.append_nil _).symm⟩

theorem trans (h : Adds w added v) (h' : Adds v later u) : Adds w (added ++ later) u := by
  refine ⟨h'.setup.trans h.setup, h'.openCL.trans h.openCL, h'.programs.trans h.programs, ?_⟩
  rw [h'.notes, h.notes, List.append_assoc]

end Adds

/-- Buffers created in a context, numbered from one number up to another. -/
inductive Created (context : Nat) : Nat → List Note → Nat → Prop where
  | nil (n : Nat) : Created context n [] n
  | cons {n m : Nat} {access : Native.Access} {content : Tensor} {rest : List Note}
      (h : Created context (n + 1) rest m) :
      Created context n (.native (.buffer n context access content) :: rest) m

namespace Created

variable {context n m l : Nat} {notes later : List Note}

theorem append (h : Created context n notes m) (h' : Created context m later l) :
    Created context n (notes ++ later) l := by
  induction h with
  | nil => exact h'
  | cons _ ih => exact .cons (ih h')

theorem mem (h : Created context n notes m) {note : Note} (hnote : note ∈ notes) :
    ∃ number access content, note = .native (.buffer number context access content) ∧
      n ≤ number := by
  induction h with
  | nil => cases hnote
  | @cons n _ access content _ _ ih =>
      rcases List.mem_cons.mp hnote with rfl | hnote
      · exact ⟨n, access, content, rfl, Nat.le_refl n⟩
      · obtain ⟨number, access, content, hnumber, hle⟩ := ih hnote
        exact ⟨number, access, content, hnumber, by omega⟩

/-- Each number stands for one buffer. -/
theorem sole (h : Created context n notes m) {number c c' : Nat} {access access' : Native.Access}
    {content content' : Tensor} (hnote : .native (.buffer number c access content) ∈ notes)
    (hother : .native (.buffer number c' access' content') ∈ notes) :
    Native.Event.buffer number c access content = .buffer number c' access' content' := by
  induction h with
  | nil => cases hnote
  | @cons n _ _ _ later rest ih =>
      -- What comes behind a buffer has a higher number.
      have hlater {c : Nat} {access : Native.Access} {content : Tensor}
          (hnote : Note.native (.buffer number c access content) ∈ later) : n + 1 ≤ number := by
        obtain ⟨_, _, _, heq, hle⟩ := rest.mem hnote
        cases heq
        exact hle
      rcases List.mem_cons.mp hnote with hnote | hnote
      · rcases List.mem_cons.mp hother with hother | hother
        · exact Note.native.inj (hnote.trans hother.symm)
        · have hle := hlater hother
          cases hnote
          exact absurd hle (Nat.not_succ_le_self _)
      · rcases List.mem_cons.mp hother with hother | hother
        · have hle := hlater hnote
          cases hother
          exact absurd hle (Nat.not_succ_le_self _)
        · exact ih hnote hother

end Created

/-- The context and the queue of a device, once they are open. -/
inductive Opened (device : Device) (w : World Machine) : Nat × Nat → List Note → World Machine → Prop
  | already {opened : Nat × Nat} (open? : w.state.openCL.queues.lookup device.index = some opened) :
      Opened device w opened [] w
  | now {after : World Machine} (open? : w.state.openCL.queues.lookup device.index = none)
      (setup : after.state.setup = w.state.setup)
      (programs : after.state.openCL.programs = w.state.openCL.programs)
      (count : after.state.objects.programs = w.state.objects.programs)
      (queues : after.state.openCL.queues =
        (device.index, w.state.objects.contexts, w.state.objects.queues) :: w.state.openCL.queues)
      (notes : after.notes = w.notes ++
        [.native (.context w.state.objects.contexts [device.native.name]),
          .native (.queue w.state.objects.queues w.state.objects.contexts)]) :
      Opened device w (w.state.objects.contexts, w.state.objects.queues)
        [.native (.context w.state.objects.contexts [device.native.name]),
          .native (.queue w.state.objects.queues w.state.objects.contexts)] after

theorem queueFor_perform (device : Device) (w : World Machine) :
    ∃ opened opening after, (queueFor device).perform w = (.ok opened, after) ∧
      Opened device w opened opening after := by
  unfold queueFor
  rw [Action.perform_bind, Action.perform_state]
  dsimp only
  cases hopen : w.state.openCL.queues.lookup device.index with
  | some opened => exact ⟨opened, [], w, rfl, .already hopen⟩
  | none =>
      refine ⟨_, _, _, rfl, .now hopen rfl rfl rfl rfl ?_⟩
      exact List.append_assoc ..

namespace Opened

variable {device : Device} {w after : World Machine} {opened : Nat × Nat} {opening : List Note}

theorem setup_eq (h : Opened device w opened opening after) :
    after.state.setup = w.state.setup := by
  cases h with
  | already => rfl
  | now _ setup => exact setup

theorem programs_eq (h : Opened device w opened opening after) :
    after.state.openCL.programs = w.state.openCL.programs := by
  cases h with
  | already => rfl
  | now _ _ programs => exact programs

theorem count_eq (h : Opened device w opened opening after) :
    after.state.objects.programs = w.state.objects.programs := by
  cases h with
  | already => rfl
  | now _ _ _ count => exact count

theorem notes_eq (h : Opened device w opened opening after) :
    after.notes = w.notes ++ opening := by
  cases h with
  | already => exact (List.append_nil _).symm
  | now _ _ _ _ _ notes => exact notes

end Opened

/-- A host side holds what the argument holds. -/
theorem hostSide_collect {v : Value} {readOnly : Bool} {host : HostSide}
    (h : hostSide v readOnly = .ok host) :
    ∃ t, v.collect = .ok t ∧ host.tensor = dimensioned t := by
  have hcopied (h : (v.collect >>= fun t => .ok ⟨dimensioned t, .separate⟩) = .ok host) :
      ∃ t, v.collect = .ok t ∧ host.tensor = dimensioned t := by
    obtain ⟨t, ht, h⟩ := Steps.bind_ok_iff.mp h
    cases h
    exact ⟨t, ht, rfl⟩
  cases v with
  | array a =>
      cases h
      exact ⟨a.tensor, rfl, rfl⟩
  | atom a => exact hcopied h
  | list items => exact hcopied h

/-- How a kernel may use the buffer of an argument. -/
def accessFor (readOnly : Bool) : Native.Access := if readOnly then .readOnly else .readWrite

/-- An argument has been handed to native code: by value, or in a buffer that has
been created for it. -/
inductive Handed (context : Nat) (arg : Value) (readOnly : Bool) (notes : List Note) :
    Staged → Prop where
  | value {v : Value} (single : byValue arg readOnly = .ok true)
      (element : singleElement arg = .ok v) : Handed context arg readOnly notes ⟨.value v, none⟩
  | buffer {number : Nat} {host : HostSide} (several : byValue arg readOnly = .ok false)
      (side : hostSide arg readOnly = .ok host)
      (created : .native (.buffer number context (accessFor readOnly) host.tensor) ∈ notes) :
      Handed context arg readOnly notes ⟨.buffer number, some host⟩

theorem Handed.mono {context : Nat} {arg : Value} {readOnly : Bool} {notes notes' : List Note}
    {staged : Staged} (h : Handed context arg readOnly notes staged) (hsub : notes ⊆ notes') :
    Handed context arg readOnly notes' staged := by
  cases h with
  | value single element => exact .value single element
  | buffer several side created => exact .buffer several side (hsub created)

/-- Why an argument cannot be handed to native code: it cannot be converted, or
there is no buffer for it. -/
inductive Refused (s : Setup) (arg : Value) (readOnly : Bool) : Failure → Prop where
  | unclear {e : Failure} (unclear : byValue arg readOnly = .error e) : Refused s arg readOnly e
  | noElement {e : Failure} (single : byValue arg readOnly = .ok true)
      (noElement : singleElement arg = .error e) : Refused s arg readOnly e
  | noHostSide {e : Failure} (several : byValue arg readOnly = .ok false)
      (noSide : hostSide arg readOnly = .error e) : Refused s arg readOnly e
  | noBuffer {number : Nat} {why : String} (several : byValue arg readOnly = .ok false)
      (noBuffer : s.bufferError number = some why) :
      Refused s arg readOnly (.kernel (.execution why))

theorem launching_perform {α : Type} (operation : Action Machine (Except String α))
    (w : World Machine) :
    (launching operation).perform w =
      match operation.perform w with
      | (.ok (.ok a), after) => (.ok a, after)
      | (.ok (.error why), after) => (.error (.kernel (.execution why)), after)
      | (.error e, after) => (.error e, after) := by
  unfold launching
  rw [Action.perform_bind]
  cases operation.perform w with
  | mk outcome after =>
      cases outcome with
      | error e => rfl
      | ok result => cases result <;> rfl

section Staging

variable (context : Nat)

theorem createBuffer_perform (access : Native.Access) (content : Tensor) (w : World Machine) :
    (∃ number why, w.state.setup.bufferError number = some why ∧
      (launching (Native.createBuffer context access content)).perform w =
        (.error (.kernel (.execution why)), w)) ∨
    ∃ after, (launching (Native.createBuffer context access content)).perform w =
        (.ok w.state.objects.buffers.length, after) ∧
      Adds w [.native (.buffer w.state.objects.buffers.length context access content)] after ∧
      after.state.objects.buffers.length = w.state.objects.buffers.length + 1 := by
  rw [launching_perform]
  unfold Native.createBuffer
  simp only [Action.perform_bind, Action.perform_state]
  cases hwhy : w.state.setup.bufferError w.state.objects.buffers.length with
  | some why => exact .inl ⟨_, why, hwhy, rfl⟩
  | none => exact .inr ⟨_, rfl, ⟨rfl, rfl, rfl, rfl⟩, List.length_append⟩

/-- What handing over one argument comes to. -/
theorem stage_perform (arg : Value) (readOnly : Bool) (w : World Machine) :
    (∃ e, (stage context arg readOnly).perform w = (.error e, w) ∧
      Refused w.state.setup arg readOnly e) ∨
    ∃ staged created after, (stage context arg readOnly).perform w = (.ok staged, after) ∧
      Adds w created after ∧
      Created context w.state.objects.buffers.length created after.state.objects.buffers.length ∧
      Handed context arg readOnly created staged := by
  unfold stage
  rw [Action.perform_bind, Action.perform_lift]
  cases hbyValue : byValue arg readOnly with
  | error e => exact .inl ⟨e, rfl, .unclear hbyValue⟩
  | ok single =>
      cases single with
      | true =>
          dsimp only
          rw [if_pos rfl, Action.perform_bind, Action.perform_lift]
          cases helement : singleElement arg with
          | error e => exact .inl ⟨e, rfl, .noElement hbyValue helement⟩
          | ok v => exact .inr ⟨_, [], w, rfl, .nil w, .nil _, .value hbyValue helement⟩
      | false =>
          dsimp only
          rw [if_neg Bool.false_ne_true, Action.perform_bind, Action.perform_lift]
          cases hside : hostSide arg readOnly with
          | error e => exact .inl ⟨e, rfl, .noHostSide hbyValue hside⟩
          | ok host =>
              have hperform := Action.perform_bind
                (launching (Native.createBuffer context (accessFor readOnly) host.tensor))
                (fun number => (pure ⟨.buffer number, some host⟩ : Action Machine Staged)) w
              rcases createBuffer_perform context (accessFor readOnly) host.tensor w with
                ⟨number, why, hwhy, hcreate⟩ | ⟨after, hcreate, hadds, hlength⟩
              · rw [hcreate] at hperform
                exact .inl ⟨_, hperform, .noBuffer hbyValue hwhy⟩
              · rw [hcreate] at hperform
                refine .inr ⟨_, _, after, hperform, hadds, ?_, .buffer hbyValue hside ?_⟩
                · rw [hlength]
                  exact .cons (.nil _)
                · exact List.mem_singleton.mpr rfl

/-- Arguments are handed over one after the other, until one cannot be. -/
theorem stageAll_perform (items : List (Value × Bool)) (w : World Machine) :
    ∃ outcome created after,
      (items.mapM fun (arg, readOnly) => stage context arg readOnly).perform w = (outcome, after) ∧
      Adds w created after ∧
      Created context w.state.objects.buffers.length created after.state.objects.buffers.length ∧
      (∀ e, outcome = .error e → ∃ item ∈ items, Refused w.state.setup item.1 item.2 e) ∧
      ∀ staged, outcome = .ok staged →
        List.Forall₂ (fun item s => Handed context item.1 item.2 created s) items staged := by
  induction items generalizing w with
  | nil => exact ⟨_, [], w, rfl, .nil w, .nil _, nofun, fun _ h => by cases h; exact .nil⟩
  | cons item rest ih =>
      obtain ⟨arg, readOnly⟩ := item
      rw [List.mapM_cons, Action.perform_bind]
      rcases stage_perform context arg readOnly w with
        ⟨e, hstage, hrefused⟩ | ⟨first, created, next, hstage, hadds, hcreated, hhanded⟩
      · refine ⟨.error e, [], w, ?_, .nil w, .nil _, ?_, nofun⟩
        · dsimp only
          rw [hstage]
        · rintro _ ⟨⟩
          exact ⟨_, List.mem_cons_self, hrefused⟩
      · obtain ⟨outcome, others, after, hrest, haddsRest, hcreatedRest, herror, hok⟩ := ih next
        dsimp only
        rw [hstage]
        dsimp only
        rw [Action.perform_bind, hrest]
        cases outcome with
        | error e =>
            refine ⟨.error e, created ++ others, after, rfl, hadds.trans haddsRest,
              hcreated.append hcreatedRest, ?_, nofun⟩
            rintro _ ⟨⟩
            obtain ⟨item, hitem, hrefused⟩ := herror e rfl
            exact ⟨item, List.mem_cons_of_mem _ hitem, hadds.setup ▸ hrefused⟩
        | ok staged =>
            refine ⟨.ok (first :: staged), created ++ others, after, rfl, hadds.trans haddsRest,
              hcreated.append hcreatedRest, nofun, ?_⟩
            rintro _ ⟨⟩
            refine .cons (hhanded.mono (List.subset_append_left ..)) ((hok staged rfl).imp ?_)
            exact fun _ _ h => h.mono (List.subset_append_right ..)

end Staging

section Fetching

variable (queue : Nat)

/-- A note of reading back the buffer of one of some arguments. -/
def ReadsBack (arguments : List Native.Argument) (note : Note) : Prop :=
  ∃ number, .buffer number ∈ arguments ∧ note = .native (.copy queue number)

/-- The reason why some buffer cannot be read back. -/
def Unreadable (s : Setup) (e : Failure) : Prop :=
  ∃ number why, s.copyError number = some why ∧ e = .kernel (.execution why)

theorem fetch_perform (readOnly : Bool) (staged : Staged) (w : World Machine) :
    ∃ outcome added after, (fetch queue readOnly staged).perform w = (outcome, after) ∧
      Adds w added after ∧ (∀ note ∈ added, ReadsBack queue [staged.argument] note) ∧
      ∀ e, outcome = .error e → Unreadable w.state.setup e := by
  unfold fetch
  split
  · next host number hhost hargument =>
    split
    · exact ⟨_, [], w, rfl, .nil w, by simp, nofun⟩
    · rw [Action.perform_bind, launching_perform]
      unfold Native.copy
      simp only [Action.perform_bind, Action.perform_note, Action.perform_state]
      have hnote : ∀ note ∈ [Note.native (.copy queue number)],
          ReadsBack queue [staged.argument] note := by
        intro note hnote
        exact ⟨number, by rw [hargument]; exact List.mem_singleton_self _,
          List.mem_singleton.mp hnote⟩
      cases hwhy : w.state.setup.copyError number with
      | some why =>
          refine ⟨_, _, _, rfl, ⟨rfl, rfl, rfl, rfl⟩, hnote, ?_⟩
          rintro _ ⟨⟩
          exact ⟨number, why, hwhy, rfl⟩
      | none => exact ⟨_, _, _, rfl, ⟨rfl, rfl, rfl, rfl⟩, hnote, nofun⟩
  · exact ⟨_, [], w, rfl, .nil w, by simp, nofun⟩

/-- What is read back for the arguments of a launch, one after the other. -/
def fetchAll (items : List ((Value × Bool) × Staged)) : Action Machine (List (Option ReadBack)) :=
  items.mapM fun ((_, readOnly), s) => fetch queue readOnly s

theorem fetchAll_cons (arg : Value) (readOnly : Bool) (s : Staged)
    (items : List ((Value × Bool) × Staged)) :
    fetchAll queue (((arg, readOnly), s) :: items) = (do
      let first ← fetch queue readOnly s
      let others ← fetchAll queue items
      return first :: others) := List.mapM_cons

theorem fetchAll_perform (items : List ((Value × Bool) × Staged)) (w : World Machine) :
    ∃ outcome added after, (fetchAll queue items).perform w = (outcome, after) ∧
      Adds w added after ∧
      (∀ note ∈ added, ReadsBack queue (items.map (·.2.argument)) note) ∧
      ∀ e, outcome = .error e → Unreadable w.state.setup e := by
  induction items generalizing w with
  | nil => exact ⟨_, [], w, rfl, .nil w, by simp, nofun⟩
  | cons item rest ih =>
      obtain ⟨⟨arg, readOnly⟩, staged⟩ := item
      obtain ⟨outcome, added, next, hfetch, hadds, hnotes, herror⟩ :=
        fetch_perform queue readOnly staged w
      have hfirst : ∀ note ∈ added,
          ReadsBack queue ((((arg, readOnly), staged) :: rest).map (·.2.argument)) note := by
        intro note hnote
        obtain ⟨number, hnumber, heq⟩ := hnotes note hnote
        refine ⟨number, ?_, heq⟩
        rw [List.mem_singleton.mp hnumber]
        exact List.mem_cons_self
      rw [fetchAll_cons, Action.perform_bind, hfetch]
      cases outcome with
      | error e =>
          refine ⟨.error e, added, next, rfl, hadds, hfirst, ?_⟩
          rintro _ ⟨⟩
          exact herror e rfl
      | ok first =>
          obtain ⟨outcome, later, after, hrest, haddsRest, hnotesRest, herrorRest⟩ := ih next
          dsimp only
          rw [Action.perform_bind, hrest]
          have hall : ∀ note ∈ added ++ later,
              ReadsBack queue ((((arg, readOnly), staged) :: rest).map (·.2.argument)) note := by
            intro note hnote
            rcases List.mem_append.mp hnote with hnote | hnote
            · exact hfirst note hnote
            · obtain ⟨number, hnumber, heq⟩ := hnotesRest note hnote
              exact ⟨number, List.mem_cons_of_mem _ hnumber, heq⟩
          rw [hadds.setup] at herrorRest
          cases outcome with
          | error e =>
              refine ⟨.error e, added ++ later, after, rfl, hadds.trans haddsRest, hall, ?_⟩
              rintro _ ⟨⟩
              exact herrorRest e rfl
          | ok others =>
              exact ⟨.ok (first :: others), added ++ later, after, rfl, hadds.trans haddsRest, hall,
                nofun⟩

theorem ReadsBack.mono {queue : Nat} {arguments arguments' : List Native.Argument} {note : Note}
    (h : ReadsBack queue arguments note) (hsub : arguments ⊆ arguments') :
    ReadsBack queue arguments' note := by
  obtain ⟨number, hnumber, hnote⟩ := h
  exact ⟨number, hsub hnumber, hnote⟩

end Fetching

section Launches

/-- What is reported of a launch without a program. -/
def uncompiledReport (request : RunRequest) : String :=
  "Kernel " ++ request.name ++ " has not been compiled for device " ++ request.device.text

/-- The failure of a launch without a program. -/
def notCompiled (request : RunRequest) : Failure := .kernel (.execution (uncompiledReport request))

/-- The native call of a launch. -/
def callOf (request : RunRequest) (program : Native.Program) (queue : Nat) (staged : List Staged) :
    Native.Call :=
  { program := program.number, kernel := request.name, queue, globalSize := request.launch.drop 3,
    localSize := request.block, arguments := staged.map (·.argument),
    globalOffset := request.launch.take 3 }

/-- Why a launch can fail once its program is called. -/
def Broken (s : Setup) (e : Failure) : Prop :=
  (∃ why, s.runError = some why ∧ e = .kernel (.execution why)) ∨ Unreadable s e

/-- What a launch can come to, with the notes that it leaves. -/
inductive Running {α : Type} (request : RunRequest) (w : World Machine) :
    Except Failure α → List Note → World Machine → Prop where
  | unknown (unknown : w.state.openCL.programs.lookup (request.device.index, request.name) = none) :
      Running request w (.error (notCompiled request)) [] w
  | refused {program : Native.Program} {n m : Nat} {opened : Nat × Nat} {opening created : List Note}
      {before after : World Machine} {e : Failure} {item : Value × Bool}
      (known : w.state.openCL.programs.lookup (request.device.index, request.name) = some program)
      (opens : Opened request.device w opened opening before) (adds : Adds before created after)
      (creates : Created opened.1 n created m) (mem : item ∈ flagged request)
      (refused : Refused w.state.setup item.1 item.2 e) :
      Running request w (.error e) (opening ++ created) after
  | called {program : Native.Program} {n m : Nat} {opened : Nat × Nat}
      {opening created rest : List Note}
      {before after : World Machine} {staged : List Staged} {outcome : Except Failure α}
      (known : w.state.openCL.programs.lookup (request.device.index, request.name) = some program)
      (opens : Opened request.device w opened opening before)
      (adds : Adds before (created ++
        .native (.call (callOf request program opened.2 staged)) :: rest) after)
      (creates : Created opened.1 n created m)
      (handed : List.Forall₂ (fun item s => Handed opened.1 item.1 item.2 created s)
        (flagged request) staged)
      (follow : ∀ note ∈ rest, note = .native (.finish opened.2) ∨
        ReadsBack opened.2 (staged.map (·.argument)) note)
      (broken : ∀ e, outcome = .error e → Broken w.state.setup e) :
      Running request w outcome (opening ++ (created ++
        .native (.call (callOf request program opened.2 staged)) :: rest)) after

theorem call_perform (p : Native.Program) (c : Native.Call) (w : World Machine) :
    (∃ why after, w.state.setup.runError = some why ∧
      (launching (Native.call p c)).perform w = (.error (.kernel (.execution why)), after) ∧
      Adds w [.native (.call c)] after) ∨
    ∃ after, (launching (Native.call p c)).perform w = (.ok (), after) ∧
      Adds w [.native (.call c)] after := by
  rw [launching_perform]
  unfold Native.call
  simp only [Action.perform_bind, Action.perform_note, Action.perform_state]
  cases hwhy : w.state.setup.runError with
  | some why => exact .inl ⟨why, _, rfl, rfl, rfl, rfl, rfl, rfl⟩
  | none => exact .inr ⟨_, rfl, rfl, rfl, rfl, rfl⟩

/-- The rest of a launch, once its arguments have been handed over. -/
def callThrough (request : RunRequest) (program : Native.Program) (queue : Nat)
    (staged : List Staged) : Action Machine (List (Option ReadBack)) := do
  launching (Native.call program (callOf request program queue staged))
  let fetched ← fetchAll queue ((flagged request).zip staged)
  Native.finish queue
  return fetched

theorem callThrough_perform (request : RunRequest) (program : Native.Program) (queue : Nat)
    (staged : List Staged) (w : World Machine) :
    ∃ outcome rest after, (callThrough request program queue staged).perform w = (outcome, after) ∧
      Adds w (.native (.call (callOf request program queue staged)) :: rest) after ∧
      (∀ note ∈ rest, note = .native (.finish queue) ∨
        ReadsBack queue (staged.map (·.argument)) note) ∧
      ∀ e, outcome = .error e → Broken w.state.setup e := by
  unfold callThrough
  rw [Action.perform_bind]
  rcases call_perform program (callOf request program queue staged) w with
    ⟨why, after, hwhy, hcall, hadds⟩ | ⟨answered, hcall, hadds⟩
  · rw [hcall]
    refine ⟨_, [], after, rfl, hadds, by simp, ?_⟩
    rintro _ ⟨⟩
    exact .inl ⟨why, hwhy, rfl⟩
  · obtain ⟨fetching, copies, fetched, hfetch, haddsCopies, hcopies, hunreadable⟩ :=
      fetchAll_perform queue ((flagged request).zip staged) answered
    rw [hadds.setup] at hunreadable
    have hfollow : ∀ note ∈ copies, ReadsBack queue (staged.map (·.argument)) note := by
      intro note hnote
      refine (hcopies note hnote).mono ?_
      intro argument hargument
      obtain ⟨⟨item, s⟩, hpair, rfl⟩ := List.mem_map.mp hargument
      exact List.mem_map_of_mem (List.of_mem_zip hpair).2
    rw [hcall]
    dsimp only
    rw [Action.perform_bind, hfetch]
    cases fetching with
    | error e =>
        refine ⟨_, copies, fetched, rfl, hadds.trans haddsCopies,
          fun note hnote => .inr (hfollow note hnote), ?_⟩
        rintro _ ⟨⟩
        exact .inr (hunreadable e rfl)
    | ok results =>
        have hfinish : Adds fetched [.native (.finish queue)]
            { fetched with notes := fetched.notes ++ [.native (.finish queue)] } :=
          ⟨rfl, rfl, rfl, rfl⟩
        refine ⟨_, copies ++ [.native (.finish queue)], _, rfl,
          hadds.trans (haddsCopies.trans hfinish), fun note hnote => ?_, nofun⟩
        rcases List.mem_append.mp hnote with hnote | hnote
        · exact .inr (hfollow note hnote)
        · exact .inl (List.mem_singleton.mp hnote)

theorem transfer_perform (request : RunRequest) (w : World Machine) :
    ∃ outcome notes after, (transfer request).perform w = (outcome, after) ∧
      Running request w outcome notes after := by
  unfold transfer
  rw [Action.perform_bind, Action.perform_state]
  dsimp only
  cases hprogram : w.state.openCL.programs.lookup (request.device.index, request.name) with
  | none => exact ⟨_, [], w, rfl, .unknown hprogram⟩
  | some program =>
      obtain ⟨opened, opening, before, hopen, hopens⟩ := queueFor_perform request.device w
      obtain ⟨staging, created, ready, hstage, hadds, hcreates, hrefused, hhanded⟩ :=
        stageAll_perform opened.1 (flagged request) before
      rw [hopens.setup_eq] at hrefused
      dsimp only
      rw [Action.perform_bind, hopen]
      dsimp only
      rw [Action.perform_bind, hstage]
      cases staging with
      | error e =>
          obtain ⟨item, hitem, hwhy⟩ := hrefused e rfl
          exact ⟨_, _, ready, rfl, .refused hprogram hopens hadds hcreates hitem hwhy⟩
      | ok staged =>
          obtain ⟨outcome, rest, after, hperform, haddsRest, hfollow, hbroken⟩ :=
            callThrough_perform request program opened.2 staged ready
          rw [hadds.setup, hopens.setup_eq] at hbroken
          exact ⟨outcome, _, after, hperform, .called hprogram hopens (hadds.trans haddsRest)
            hcreates (hhanded staged rfl) hfollow hbroken⟩

/-- How it goes does not depend on what the answer is made into. -/
theorem Running.map {α β : Type} {request : RunRequest} {w after : World Machine}
    {outcome : Except Failure α} {notes : List Note} (h : Running request w outcome notes after)
    (f : α → β) : Running request w (outcome.map f) notes after := by
  cases h with
  | unknown unknown => exact .unknown unknown
  | refused known opens adds creates mem refused =>
      exact .refused known opens adds creates mem refused
  | called known opens adds creates handed follow broken =>
      refine .called known opens adds creates handed follow fun e he => broken e ?_
      cases outcome with
      | error => exact congrArg Except.error (Except.error.inj he)
      | ok => cases he

theorem run_perform (request : RunRequest) (w : World Machine) :
    ∃ outcome notes after, (run request).perform w = (outcome, after) ∧
      Running request w outcome notes after := by
  obtain ⟨outcome, notes, after, htransfer, hrunning⟩ := transfer_perform request w
  refine ⟨outcome.map (replyFor request.args), notes, after, ?_, hrunning.map _⟩
  rw [run_perform_eq, htransfer]

theorem Running.notes_eq {request : RunRequest} {w after : World Machine}
    {outcome : Except Failure Reply} {notes : List Note}
    (h : Running request w outcome notes after) : after.notes = w.notes ++ notes := by
  cases h with
  | unknown => exact (List.append_nil _).symm
  | refused _ opens adds => rw [adds.notes, opens.notes_eq, List.append_assoc]
  | called _ opens adds => rw [adds.notes, opens.notes_eq, List.append_assoc]

end Launches

section Compilations

/-- The notes of a program that is created and built. -/
def buildNotes (program context : Nat) (text options : String) : List Note :=
  [.native (.program program context text), .native (.build program options)]

/-- What a compilation can come to, with the notes that it leaves. -/
inductive Compiling (request : CompileRequest) (w : World Machine) :
    Except Failure (List String) → List Note → World Machine → Prop where
  | unread (unread : w.state.files.read? request.source = none) :
      Compiling request w (.error .missingFile) [] w
  | broken {text why : String} {opened : Nat × Nat} {opening : List Note}
      {before after : World Machine}
      (read : w.state.files.read? request.source = some text)
      (opens : Opened request.device w opened opening before)
      (openCL : after.state.openCL = before.state.openCL)
      (count : after.state.objects.programs = w.state.objects.programs + 1)
      (broken : w.state.setup.buildError = some why)
      (notes : after.notes = before.notes ++
        (buildNotes w.state.objects.programs opened.1 text request.options ++
          [.error (buildReport text request.options)])) :
      Compiling request w (.error (.kernel (.build why)))
        (opening ++ (buildNotes w.state.objects.programs opened.1 text request.options ++
          [.error (buildReport text request.options)])) after
  /-- The text that the source holds now is built with the options asked for. -/
  | compiled {text : String} {opened : Nat × Nat} {opening : List Note}
      {before after : World Machine}
      (read : w.state.files.read? request.source = some text)
      (opens : Opened request.device w opened opening before)
      (queues : after.state.openCL.queues = before.state.openCL.queues)
      (programs : after.state.openCL.programs =
        withProgram request.device.index (w.state.setup.kernelsOf text)
          ⟨w.state.objects.programs, text, request.options⟩ w.state.openCL.programs)
      (count : after.state.objects.programs = w.state.objects.programs + 1)
      (notes : after.notes = before.notes ++
        buildNotes w.state.objects.programs opened.1 text request.options) :
      Compiling request w (.ok (w.state.setup.kernelsOf text))
        (opening ++ buildNotes w.state.objects.programs opened.1 text request.options) after

theorem compile_perform (request : CompileRequest) (w : World Machine) :
    ∃ outcome notes after, (compile request).perform w = (outcome, after) ∧
      Compiling request w outcome notes after := by
  unfold compile Machine.read
  simp only [Action.perform_bind, Action.perform_state]
  cases hread : w.state.files.read? request.source with
  | none => exact ⟨_, [], w, rfl, .unread hread⟩
  | some text =>
      obtain ⟨opened, opening, before, hopen, hopens⟩ := queueFor_perform request.device w
      simp only [Action.perform_pure, hopen, Native.build, Native.updateObjects,
        Action.perform_bind, Action.perform_state, Action.perform_update, Action.perform_note,
        hopens.setup_eq, hopens.count_eq]
      cases hwhy : w.state.setup.buildError with
      | some why =>
          exact ⟨_, _, _, rfl, .broken hread hopens rfl rfl hwhy (by simp [buildNotes])⟩
      | none =>
          refine ⟨_, _, _, rfl, .compiled hread hopens rfl ?_ rfl (by simp [buildNotes])⟩
          simp [hopens.programs_eq]

theorem Compiling.notes_eq {request : CompileRequest} {w after : World Machine}
    {outcome : Except Failure (List String)} {notes : List Note}
    (h : Compiling request w outcome notes after) : after.notes = w.notes ++ notes := by
  cases h with
  | unread => exact (List.append_nil _).symm
  | broken _ opens _ _ _ notes => rw [notes, opens.notes_eq, List.append_assoc]
  | compiled _ opens _ _ _ notes => rw [notes, opens.notes_eq, List.append_assoc]

end Compilations

end KernelLaunch.Backend.OpenCL
