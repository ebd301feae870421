import KernelLaunch.Proofs.Backend.Operations
import KernelLaunch.Proofs.Kernel.Exchanges

/-!
The program table of the OpenCL backend. A launch leaves it as it is and calls the program
found under the device index and the kernel name; a successful compilation replaces the
entries of all kernels that it reports.
-/

namespace KernelLaunch

open Host Backend

/-- The number of the program, if one is created. -/
def Note.program? : Note → Option Nat
  | .native (.program number _ _) => some number
  | _ => none

/-- The notes left during an exchange. -/
def Exchange.events : Exchange → List Note
  | .compile _ _ events => events
  | .run _ events => events

/-- The native call, if it is a note of one. -/
def Note.call? : Note → Option Native.Call
  | .native (.call c) => some c
  | _ => none

/-- The calls of native code during an exchange. -/
def Exchange.calls (e : Exchange) : List Native.Call := e.events.filterMap Note.call?

theorem mem_calls {notes : List Note} {c : Native.Call} :
    c ∈ notes.filterMap Note.call? ↔ .native (.call c) ∈ notes := by
  rw [List.mem_filterMap]
  constructor
  · rintro ⟨n, hn, hc⟩
    unfold Note.call? at hc
    split at hc
    · cases hc
      exact hn
    · cases hc
  · intro h
    exact ⟨_, h, rfl⟩

/-- The program that a compilation has created. -/
def Compilation.program? (c : Compilation) : Option Nat := c.events.findSome? Note.program?

namespace Backend.OpenCL

section Notes

variable {device : Device} {w after : World Machine} {notes : List Note} {c : Native.Call}

theorem Opened.mem {opened : Nat × Nat} (h : Opened device w opened notes after) {note : Note}
    (hnote : note ∈ notes) :
    note = .native (.context opened.1 [device.native.name]) ∨
      note = .native (.queue opened.2 opened.1) := by
  cases h with
  | already => cases hnote
  | now =>
      rcases List.mem_cons.mp hnote with hnote | hnote
      · exact .inl hnote
      · exact .inr (List.mem_singleton.mp hnote)

theorem Opened.no_call {opened : Nat × Nat} (h : Opened device w opened notes after) :
    .native (.call c) ∉ notes := by
  intro hc
  rcases h.mem hc with hc | hc <;> cases hc

theorem Opened.no_program {opened : Nat × Nat} (h : Opened device w opened notes after) :
    notes.findSome? Note.program? = none := by
  cases h <;> rfl

theorem Created.no_call {context n m : Nat} (h : Created context n notes m) :
    .native (.call c) ∉ notes := by
  intro hc
  obtain ⟨_, _, _, heq, _⟩ := h.mem hc
  cases heq

/-- What follows a call is no other call. -/
theorem no_call_of_follow {queue : Nat} {arguments : List Native.Argument}
    (h : ∀ note ∈ notes, note = .native (.finish queue) ∨ ReadsBack queue arguments note) :
    .native (.call c) ∉ notes := by
  intro hc
  rcases h _ hc with hfinish | ⟨_, _, hcopy⟩
  · cases hfinish
  · cases hcopy

/-- A launch that has called native code with some arguments. -/
structure Calling (request : RunRequest) (w : World Machine) (notes : List Note)
    (c : Native.Call) (opened : Nat × Nat) (staged : List Staged) : Prop where
  known : ∃ program, w.state.openCL.programs.lookup (request.device.index, request.name) =
    some program ∧ c = callOf request program opened.2 staged
  notes : ∃ opening created rest before n m, Opened request.device w opened opening before ∧
    Created opened.1 n created m ∧
    (∀ note ∈ rest, note = .native (.finish opened.2) ∨
      ReadsBack opened.2 (staged.map (·.argument)) note) ∧
    List.Forall₂ (fun item s => Handed opened.1 item.1 item.2 created s) (flagged request) staged ∧
    notes = opening ++ (created ++ .native (.call c) :: rest)

namespace Calling

variable {request : RunRequest} {opened : Nat × Nat} {staged : List Staged}

theorem program_eq (h : Calling request w notes c opened staged) :
    (w.state.openCL.programs.lookup (request.device.index, request.name)).map (·.number) =
      some c.program := by
  obtain ⟨program, hknown, rfl⟩ := h.known
  exact congrArg (Option.map _) hknown

theorem kernel_eq (h : Calling request w notes c opened staged) : c.kernel = request.name := by
  obtain ⟨_, _, rfl⟩ := h.known
  rfl

theorem arguments_eq (h : Calling request w notes c opened staged) :
    c.arguments = staged.map (·.argument) := by
  obtain ⟨_, _, rfl⟩ := h.known
  rfl

end Calling

theorem Running.calling {request : RunRequest} {outcome : Except Failure Reply}
    (h : Running request w outcome notes after) (hc : .native (.call c) ∈ notes) :
    ∃ opened staged, Calling request w notes c opened staged := by
  cases h with
  | unknown => cases hc
  | refused _ opens _ creates =>
      rcases List.mem_append.mp hc with hc | hc
      · exact absurd hc opens.no_call
      · exact absurd hc creates.no_call
  | @called program n m opened opening created rest before _ staged _ known opens adds creates
      handed follow =>
      have hcall : c = callOf request program opened.2 staged := by
        rcases List.mem_append.mp hc with hc | hc
        · exact absurd hc opens.no_call
        · rcases List.mem_append.mp hc with hc | hc
          · exact absurd hc creates.no_call
          · rcases List.mem_cons.mp hc with hc | hc
            · cases hc
              rfl
            · exact absurd hc (no_call_of_follow follow)
      subst hcall
      exact ⟨opened, staged, ⟨program, known, rfl⟩, opening, created, rest, before, n, m, opens,
        creates, follow, handed, rfl⟩

/-- A launch compiles nothing. -/
theorem Running.programs_eq {request : RunRequest} {outcome : Except Failure Reply}
    (h : Running request w outcome notes after) :
    after.state.openCL.programs = w.state.openCL.programs ∧
      after.state.objects.programs = w.state.objects.programs := by
  cases h with
  | unknown => exact ⟨rfl, rfl⟩
  | refused _ opens adds =>
      exact ⟨(congrArg _ adds.openCL).trans opens.programs_eq, adds.programs.trans opens.count_eq⟩
  | called _ opens adds =>
      exact ⟨(congrArg _ adds.openCL).trans opens.programs_eq, adds.programs.trans opens.count_eq⟩

theorem Compiling.no_call {request : CompileRequest} {outcome : Except Failure (List String)}
    (h : Compiling request w outcome notes after) : .native (.call c) ∉ notes := by
  cases h with
  | unread => exact List.not_mem_nil
  | broken _ opens =>
      rw [List.mem_append]
      rintro (hc | hc)
      · exact opens.no_call hc
      · simp [buildNotes] at hc
  | compiled _ opens =>
      rw [List.mem_append]
      rintro (hc | hc)
      · exact opens.no_call hc
      · simp [buildNotes] at hc

end Notes

section Recorded

theorem drop_notes {notes before added : List Note} (h : notes = before ++ added) :
    notes.drop before.length = added := by
  rw [h, List.drop_left]

/-- What is recorded of a compilation. -/
theorem compile_recorded (request : CompileRequest) (w : World (Recorded Machine)) :
    ∃ outcome notes after, (openCL.recording.compile request).perform w =
        (outcome, ⟨⟨after.state, w.state.record ++ [.compile request outcome notes]⟩, after.notes⟩) ∧
      Compiling request w.erased outcome notes after := by
  obtain ⟨outcome, notes, after, hperform, hcompiling⟩ := compile_perform request w.erased
  refine ⟨outcome, notes, after, ?_, hcompiling⟩
  have hevents : after.notes.drop w.notes.length = notes := drop_notes hcompiling.notes_eq
  change (((compile request).perform w.erased).1, (⟨⟨((compile request).perform w.erased).2.state,
    w.state.record ++ [.compile request ((compile request).perform w.erased).1
      (((compile request).perform w.erased).2.notes.drop w.notes.length)]⟩,
    ((compile request).perform w.erased).2.notes⟩ : World (Recorded Machine))) = _
  rw [hperform, hevents]

/-- What is recorded of a launch. -/
theorem run_recorded (request : RunRequest) (w : World (Recorded Machine)) :
    ∃ outcome notes after, (openCL.recording.run request).perform w =
        (outcome, ⟨⟨after.state, w.state.record ++ [.run request notes]⟩, after.notes⟩) ∧
      Running request w.erased outcome notes after := by
  obtain ⟨outcome, notes, after, hperform, hrunning⟩ := run_perform request w.erased
  refine ⟨outcome, notes, after, ?_, hrunning⟩
  have hevents : after.notes.drop w.notes.length = notes := drop_notes hrunning.notes_eq
  change (((run request).perform w.erased).1, (⟨⟨((run request).perform w.erased).2.state,
    w.state.record ++ [.run request (((run request).perform w.erased).2.notes.drop w.notes.length)]⟩,
    ((run request).perform w.erased).2.notes⟩ : World (Recorded Machine))) = _
  rw [hperform, hevents]

end Recorded

theorem lookup_withProgram (index : Int) (names : List String) (program : Native.Program)
    (programs : List ((Int × String) × Native.Program)) (i : Int) (name : String) :
    (withProgram index names program programs).lookup (i, name) =
      if index = i ∧ name ∈ names then some program else programs.lookup (i, name) := by
  induction names generalizing programs with
  | nil => simp [withProgram]
  | cons first rest ih =>
      have hcons : withProgram index (first :: rest) program programs =
          withProgram index rest program (((index, first), program) :: programs) := rfl
      rw [hcons, ih]
      by_cases hrest : index = i ∧ name ∈ rest
      · simp [hrest]
      · by_cases hfirst : index = i ∧ name = first
        · simp [hfirst]
        · have hkey : ((i, name) == (index, first)) = false := by
            simpa [eq_comm (a := i)] using hfirst
          have hnone : ¬ (index = i ∧ name ∈ first :: rest) := by
            rintro ⟨hi, hname⟩
            rcases List.mem_cons.mp hname with hname | hname
            · exact hfirst ⟨hi, hname⟩
            · exact hrest ⟨hi, hname⟩
          rw [if_neg hrest, if_neg hnone, List.lookup_cons, hkey]

end Backend.OpenCL

end KernelLaunch
