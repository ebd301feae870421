import KernelLaunch.Proofs.Backend.Programs

/-!
Contexts and command queues per device. The OpenCL backend opens one context and one queue
for each device index, on first use, and performs every later operation for that index in
this context and on this queue, with programs and buffers of this context.
-/

namespace KernelLaunch

open Host Backend

/-- The index of the device that a request is for. -/
def Exchange.index : Exchange → Int
  | .compile request _ _ => request.device.index
  | .run request _ => request.device.index

/-- The notes of all exchanges for devices of an index. -/
def notesFor (record : List Exchange) (index : Int) : List Note :=
  (record.filter (·.index == index)).flatMap Exchange.events

theorem notesFor_snoc_self (record : List Exchange) (e : Exchange) :
    notesFor (record ++ [e]) e.index = notesFor record e.index ++ e.events := by
  simp [notesFor, List.filter_append]

theorem notesFor_snoc_of_ne {e : Exchange} {index : Int} (h : e.index ≠ index)
    (record : List Exchange) : notesFor (record ++ [e]) index = notesFor record index := by
  simp [notesFor, List.filter_append, h]

/-- An exchange without notes. -/
theorem notesFor_snoc_nil {e : Exchange} (h : e.events = []) (record : List Exchange)
    (index : Int) : notesFor (record ++ [e]) index = notesFor record index := by
  by_cases hindex : e.index = index
  · rw [← hindex, notesFor_snoc_self, h, List.append_nil]
  · exact notesFor_snoc_of_ne hindex record

/-- The context, if one is created. -/
def Note.context? : Note → Option Nat
  | .native (.context context _) => some context
  | _ => none

/-- The queue with its context, if one is created. -/
def Note.queue? : Note → Option (Nat × Nat)
  | .native (.queue queue context) => some (queue, context)
  | _ => none

/-- A buffer of a number has been created in a context. -/
def HasBuffer (context : Nat) (notes : List Note) (number : Nat) : Prop :=
  ∃ access content, .native (.buffer number context access content) ∈ notes

/-- A program of a number has been created in a context. -/
def HasProgram (context : Nat) (notes : List Note) (number : Nat) : Prop :=
  ∃ text, .native (.program number context text) ∈ notes

/-- What is noted has been done in a context or on a queue, with programs and buffers
that have been created in the context. -/
def AtHome (context queue : Nat) (notes : List Note) : Note → Prop
  | .native (.context own _) => own = context
  | .native (.queue own home) => own = queue ∧ home = context
  | .native (.program _ home _) => home = context
  | .native (.build program _) => HasProgram context notes program
  | .native (.buffer _ home _ _) => home = context
  | .native (.call c) => c.queue = queue ∧ HasProgram context notes c.program ∧
      ∀ number, .buffer number ∈ c.arguments → HasBuffer context notes number
  | .native (.copy own number) => own = queue ∧ HasBuffer context notes number
  | .native (.finish own) => own = queue
  | _ => True

section AtHome

variable {context queue number : Nat} {notes notes' : List Note}

theorem HasBuffer.mono (h : HasBuffer context notes number) (hsub : notes ⊆ notes') :
    HasBuffer context notes' number := by
  obtain ⟨access, content, hmem⟩ := h
  exact ⟨access, content, hsub hmem⟩

theorem HasProgram.mono (h : HasProgram context notes number) (hsub : notes ⊆ notes') :
    HasProgram context notes' number := by
  obtain ⟨text, hmem⟩ := h
  exact ⟨text, hsub hmem⟩

theorem AtHome.mono {note : Note} (h : AtHome context queue notes note) (hsub : notes ⊆ notes') :
    AtHome context queue notes' note := by
  cases note with
  | native event =>
      cases event with
      | build program options => exact HasProgram.mono h hsub
      | call c => exact ⟨h.1, h.2.1.mono hsub, fun number hn => (h.2.2 number hn).mono hsub⟩
      | copy own number => exact ⟨h.1, h.2.mono hsub⟩
      | _ => exact h
  | _ => exact h

end AtHome

/-- One context and one queue have been created, and every other native call is made there. -/
structure Home (context queue : Nat) (notes : List Note) : Prop where
  contexts : notes.filterMap Note.context? = [context]
  queues : notes.filterMap Note.queue? = [(queue, context)]
  atHome : ∀ note ∈ notes, AtHome context queue notes note

/-- Neither a context nor a queue is opened, and all is done in those that are. -/
structure StaysHome (context queue : Nat) (known notes : List Note) : Prop where
  contexts : notes.filterMap Note.context? = []
  queues : notes.filterMap Note.queue? = []
  atHome : ∀ note ∈ notes, AtHome context queue (known ++ notes) note

theorem Home.append {context queue : Nat} {notes later : List Note} (h : Home context queue notes)
    (hlater : StaysHome context queue notes later) : Home context queue (notes ++ later) := by
  refine ⟨?_, ?_, fun note hnote => ?_⟩
  · rw [List.filterMap_append, h.contexts, hlater.contexts, List.append_nil]
  · rw [List.filterMap_append, h.queues, hlater.queues, List.append_nil]
  · rcases List.mem_append.mp hnote with hnote | hnote
    · exact (h.atHome note hnote).mono (List.subset_append_left ..)
    · exact hlater.atHome note hnote

theorem StaysHome.append {context queue : Nat} {known notes later : List Note}
    (h : StaysHome context queue known notes) (hlater : StaysHome context queue (known ++ notes) later) :
    StaysHome context queue known (notes ++ later) := by
  refine ⟨?_, ?_, fun note hnote => ?_⟩
  · rw [List.filterMap_append, h.contexts, hlater.contexts, List.append_nil]
  · rw [List.filterMap_append, h.queues, hlater.queues, List.append_nil]
  · rw [← List.append_assoc]
    rcases List.mem_append.mp hnote with hnote | hnote
    · exact (h.atHome note hnote).mono (List.subset_append_left ..)
    · exact hlater.atHome note hnote

namespace Backend.OpenCL

/-- A context and a queue that have just been opened. -/
theorem home_opening (context queue : Nat) (devices : List String) :
    Home context queue [.native (.context context devices), .native (.queue queue context)] := by
  refine ⟨rfl, rfl, fun note hnote => ?_⟩
  rcases List.mem_cons.mp hnote with rfl | hnote
  · rfl
  · rw [List.mem_singleton.mp hnote]
    exact ⟨rfl, rfl⟩

theorem staysHome_created {context queue n m : Nat} {created : List Note}
    (h : Created context n created m) (known : List Note) :
    StaysHome context queue known created := by
  have hbuffers {β : Type} {f : Note → Option β}
      (hf : ∀ n c access content, f (.native (.buffer n c access content)) = none) :
      created.filterMap f = [] := by
    refine List.filterMap_eq_nil_iff.mpr fun note hnote => ?_
    obtain ⟨_, _, _, rfl, _⟩ := h.mem hnote
    exact hf ..
  refine ⟨hbuffers fun _ _ _ _ => rfl, hbuffers fun _ _ _ _ => rfl, fun note hnote => ?_⟩
  obtain ⟨_, _, _, rfl, _⟩ := h.mem hnote
  rfl

theorem staysHome_built {program context queue : Nat} {text options : String}
    (known : List Note) :
    StaysHome context queue known (buildNotes program context text options) := by
  refine ⟨rfl, rfl, fun note hnote => ?_⟩
  rcases List.mem_cons.mp hnote with rfl | hnote
  · rfl
  · rw [List.mem_singleton.mp hnote]
    exact ⟨text, List.mem_append_right _ List.mem_cons_self⟩

/-- Notes that are of no native object. -/
theorem staysHome_plain {context queue : Nat} {text : String} (known : List Note) :
    StaysHome context queue known [.error text] := by
  refine ⟨rfl, rfl, fun note hnote => ?_⟩
  rw [List.mem_singleton.mp hnote]
  exact trivial

/-- A call with what follows it, for a program and buffers that there are. -/
theorem staysHome_call {context : Nat} {c : Native.Call} {known rest : List Note}
    (hprogram : HasProgram context known c.program)
    (hbuffers : ∀ number, .buffer number ∈ c.arguments → HasBuffer context known number)
    (hrest : ∀ note ∈ rest, note = .native (.finish c.queue) ∨ ReadsBack c.queue c.arguments note) :
    StaysHome context c.queue known (.native (.call c) :: rest) := by
  have hopens {β : Type} {f : Note → Option β} (hcall : f (.native (.call c)) = none)
      (hfinish : f (.native (.finish c.queue)) = none)
      (hcopy : ∀ number, f (.native (.copy c.queue number)) = none) :
      (Note.native (.call c) :: rest).filterMap f = [] := by
    refine List.filterMap_eq_nil_iff.mpr fun note hnote => ?_
    rcases List.mem_cons.mp hnote with rfl | hnote
    · exact hcall
    · rcases hrest note hnote with rfl | ⟨number, _, rfl⟩
      · exact hfinish
      · exact hcopy number
  have hsub : known ⊆ known ++ Note.native (.call c) :: rest := List.subset_append_left ..
  refine ⟨hopens rfl rfl fun _ => rfl, hopens rfl rfl fun _ => rfl, fun note hnote => ?_⟩
  rcases List.mem_cons.mp hnote with rfl | hnote
  · exact ⟨rfl, hprogram.mono hsub, fun number hn => (hbuffers number hn).mono hsub⟩
  · rcases hrest note hnote with rfl | ⟨number, hnumber, rfl⟩
    · rfl
    · exact ⟨rfl, (hbuffers number hnumber).mono hsub⟩

theorem Opened.lookup_self {device : Device} {w after : World Machine} {opened : Nat × Nat}
    {opening : List Note} (h : Opened device w opened opening after) :
    after.state.openCL.queues.lookup device.index = some opened := by
  cases h with
  | already hopen => exact hopen
  | now _ _ _ _ queues => rw [queues, List.lookup_cons_self]

theorem Opened.lookup_of_ne {device : Device} {w after : World Machine} {opened : Nat × Nat}
    {opening : List Note} (h : Opened device w opened opening after) {index : Int}
    (hne : device.index ≠ index) :
    after.state.openCL.queues.lookup index = w.state.openCL.queues.lookup index := by
  cases h with
  | already => rfl
  | now _ _ _ _ queues =>
      have hkey : (index == device.index) = false := beq_eq_false_iff_ne.mpr hne.symm
      rw [queues, List.lookup_cons, hkey]

end Backend.OpenCL

/-- What a record tells of the context and the queue for an index. -/
structure HousedAt (m : Machine) (record : List Exchange) (index : Int) : Prop where
  unopened : m.openCL.queues.lookup index = none → notesFor record index = []
  home : ∀ context queue, m.openCL.queues.lookup index = some (context, queue) →
    Home context queue (notesFor record index)
  /-- A program that can be run has been created where it will be run. -/
  programs : ∀ name program, m.openCL.programs.lookup (index, name) = some program →
    ∃ context queue, m.openCL.queues.lookup index = some (context, queue) ∧
      HasProgram context (notesFor record index) program.number

namespace HousedAt

variable {m m' : Machine} {record record' : List Exchange} {index : Int}

/-- Nothing happens for the index. -/
theorem transfer (h : HousedAt m record index)
    (hnotes : notesFor record' index = notesFor record index)
    (hqueues : m'.openCL.queues.lookup index = m.openCL.queues.lookup index)
    (hprograms : ∀ name program, m'.openCL.programs.lookup (index, name) = some program →
      m.openCL.programs.lookup (index, name) = some program) : HousedAt m' record' index := by
  refine ⟨?_, ?_, fun name program hprogram => ?_⟩
  · rw [hqueues, hnotes]
    exact h.unopened
  · rw [hqueues, hnotes]
    exact h.home
  · rw [hqueues, hnotes]
    exact h.programs name program (hprograms name program hprogram)

variable {w before : World Machine} {device : Device} {opened : Nat × Nat}
  {opening : List Note}

theorem home_opened (h : HousedAt w.state record device.index)
    (hopens : OpenCL.Opened device w opened opening before) :
    Home opened.1 opened.2 (notesFor record device.index ++ opening) := by
  cases hopens with
  | already hopen =>
      rw [List.append_nil]
      exact h.home _ _ hopen
  | now hopen =>
      rw [h.unopened hopen]
      exact OpenCL.home_opening ..

/-- A program for the device has been created in its context. -/
theorem program_opened (h : HousedAt w.state record device.index)
    (hopens : OpenCL.Opened device w opened opening before) {name : String}
    {program : Native.Program}
    (hprogram : w.state.openCL.programs.lookup (device.index, name) = some program) :
    HasProgram opened.1 (notesFor record device.index) program.number := by
  obtain ⟨context, queue, hopen, hhas⟩ := h.programs name program hprogram
  cases hopens with
  | already hopen' =>
      cases hopen'.symm.trans hopen
      exact hhas
  | now hnone => cases hnone.symm.trans hopen

end HousedAt

/-- What a record tells of the contexts and queues of a machine. -/
def Housed (m : Machine) (record : List Exchange) : Prop := ∀ index, HousedAt m record index

namespace Housed

variable {m m' : Machine} {record : List Exchange} {e : Exchange}

theorem nil (h : m.openCL = {}) : Housed m [] := by
  intro index
  refine ⟨fun _ => rfl, fun context queue hopen => ?_, fun name program hprogram => ?_⟩
  · rw [h] at hopen
    cases hopen
  · rw [h] at hprogram
    cases hprogram

theorem congr (h : Housed m record) (hopenCL : m'.openCL = m.openCL) : Housed m' record :=
  fun index => (h index).transfer rfl (by rw [hopenCL]) fun _ _ hprogram => hopenCL ▸ hprogram

theorem snoc_nil (h : Housed m record) (hevents : e.events = []) (hopenCL : m'.openCL = m.openCL) :
    Housed m' (record ++ [e]) :=
  fun index => (h index).transfer (notesFor_snoc_nil hevents record index) (by rw [hopenCL])
    fun _ _ hprogram => hopenCL ▸ hprogram

variable {w before : World Machine} {device : Device} {opened : Nat × Nat}
  {opening more : List Note}

/-- An exchange during which the context and the queue of its device are opened, if
need be, and all else is done there. -/
theorem snoc (h : Housed w.state record) (hindex : e.index = device.index)
    (hopens : OpenCL.Opened device w opened opening before) (hevents : e.events = opening ++ more)
    (hstays : StaysHome opened.1 opened.2 (notesFor record device.index ++ opening) more)
    (hqueues : m'.openCL.queues = before.state.openCL.queues)
    (hprograms : ∀ index name program, m'.openCL.programs.lookup (index, name) = some program →
      w.state.openCL.programs.lookup (index, name) = some program ∨
        index = device.index ∧ HasProgram opened.1 more program.number) :
    Housed m' (record ++ [e]) := by
  intro index
  by_cases heq : device.index = index
  · subst heq
    have hopen : m'.openCL.queues.lookup device.index = some opened := by
      rw [hqueues, hopens.lookup_self]
    have hnotes : notesFor (record ++ [e]) device.index =
        notesFor record device.index ++ opening ++ more := by
      rw [← hindex, notesFor_snoc_self, hevents, List.append_assoc]
    refine ⟨fun hnone => ?_, fun context queue hsome => ?_, fun name program hprogram => ?_⟩
    · cases hopen.symm.trans hnone
    · cases hopen.symm.trans hsome
      rw [hnotes]
      exact ((h _).home_opened hopens).append hstays
    · refine ⟨opened.1, opened.2, hopen, ?_⟩
      rw [hnotes]
      rcases hprograms _ name program hprogram with hknown | ⟨_, hnew⟩
      · rw [List.append_assoc]
        exact ((h _).program_opened hopens hknown).mono (List.subset_append_left ..)
      · exact hnew.mono (List.subset_append_right ..)
  · refine (h index).transfer (notesFor_snoc_of_ne (hindex ▸ heq) record)
      (by rw [hqueues, hopens.lookup_of_ne heq]) fun name program hprogram => ?_
    rcases hprograms index name program hprogram with hknown | ⟨hsame, _⟩
    · exact hknown
    · exact absurd hsame.symm heq

theorem snoc_run (h : Housed w.state record) {request : RunRequest} {after : World Machine}
    {outcome : Except Failure Reply} {notes : List Note}
    (hrunning : OpenCL.Running request w outcome notes after) :
    Housed after.state (record ++ [.run request notes]) := by
  have hkept := hrunning.programs_eq.1
  cases hrunning with
  | unknown => exact h.snoc_nil rfl rfl
  | refused _ opens adds creates =>
      refine h.snoc rfl opens rfl (OpenCL.staysHome_created creates _)
        (congrArg _ adds.openCL) fun index name program hprogram => .inl ?_
      rw [← hkept]
      exact hprogram
  | @called program _ _ opened opening created rest _ _ staged _ known opens adds creates handed
      follow =>
      have hbuffers (number : Nat) (hnumber : .buffer number ∈ staged.map (·.argument)) :
          HasBuffer opened.1 (notesFor record request.device.index ++ opening ++ created) number := by
        obtain ⟨s, hs, hargument⟩ := List.mem_map.mp hnumber
        obtain ⟨i, hi⟩ := List.mem_iff_getElem?.mp hs
        obtain ⟨item, _, hhanded⟩ := Steps.place handed.flip hi
        cases hhanded with
        | value => cases hargument
        | buffer _ _ hcreated =>
            cases hargument
            exact ⟨_, _, List.mem_append_right _ hcreated⟩
      have hprogram := ((h _).program_opened opens known).mono
        (List.subset_append_left _ (opening ++ created))
      rw [← List.append_assoc] at hprogram
      have hcalled := OpenCL.staysHome_call (c := OpenCL.callOf request program opened.2 staged)
        hprogram hbuffers follow
      refine h.snoc rfl opens rfl ((OpenCL.staysHome_created creates _).append hcalled)
        (congrArg _ adds.openCL) fun index name program hprogram => .inl ?_
      rw [← hkept]
      exact hprogram

theorem snoc_compile (h : Housed w.state record) {request : CompileRequest} {after : World Machine}
    {answer : Except Failure (List String)} {notes : List Note}
    (hcompiling : OpenCL.Compiling request w answer notes after) :
    Housed after.state (record ++ [.compile request answer notes]) := by
  cases hcompiling with
  | unread => exact h.snoc_nil rfl rfl
  | broken _ opens openCL =>
      refine h.snoc rfl opens rfl ((OpenCL.staysHome_built _).append (OpenCL.staysHome_plain _))
        (congrArg _ openCL) fun index name program hprogram => .inl ?_
      rw [← opens.programs_eq, ← openCL]
      exact hprogram
  | compiled _ opens queues programs =>
      refine h.snoc rfl opens rfl (OpenCL.staysHome_built _) queues
        fun index name program hprogram => ?_
      rw [programs, OpenCL.lookup_withProgram] at hprogram
      split at hprogram
      · next hnew =>
        cases hprogram
        exact .inr ⟨hnew.1.symm, _, List.mem_cons_self⟩
      · exact .inl hprogram

end Housed

end KernelLaunch
