import KernelLaunch.Proofs.Backend.Homes
import KernelLaunch.Proofs.Backend.Ledger
import KernelLaunch.Proofs.Host.Silent
import KernelLaunch.Proofs.Kernel.Rebuilding

/-!
The program table of the OpenCL backend as a last-writer map. After any requests, a launch
finds the program of the last successful compilation that reported a kernel of its name for
its device index. Failed compilations leave the table as it is, and a launch is refused as
not compiled exactly when there is no such compilation.
-/

namespace KernelLaunch

open Host Backend

/-- A request to a backend, or a change around it. -/
inductive Request where
  | compile (request : CompileRequest)
  | run (request : RunRequest)
  /-- The files change, and the ways in which operations go or fail. -/
  | surroundings (files : Files) (setup : Setup)

namespace Request

/-- The world after a request. -/
def answered (w : World (Recorded Machine)) : Request → World (Recorded Machine)
  | .compile request => ((openCL.recording.compile request).perform w).2
  | .run request => ((openCL.recording.run request).perform w).2
  | .surroundings files setup =>
      ⟨⟨{ w.state.state with files, setup }, w.state.record⟩, w.notes⟩

/-- The world after several requests, in order. -/
def allAnswered (w : World (Recorded Machine)) (requests : List Request) :
    World (Recorded Machine) := requests.foldl answered w

/-- A backend of which nothing has been asked, on a machine with any native objects. -/
def unasked (m : Machine) : World (Recorded Machine) := ⟨{ state := { m with openCL := {} } }, []⟩

end Request

/-- No successful compilation has reported the kernel of a launch for its device index. -/
def Uncompiled (record : List Exchange) (request : RunRequest) : Prop :=
  ∀ c ∈ compilationsOf record, c.holds request.device.index request.name = false

theorem latest?_eq_none_iff {record : List Exchange} {request : RunRequest} :
    latest? record request.device.index request.name = none ↔ Uncompiled record request := by
  simp [latest?, Uncompiled]

namespace Ledger

variable {m : Machine} {record : List Exchange}

theorem uncompiled_of_lookup (h : Ledger m record) {request : RunRequest}
    (hlookup : m.openCL.programs.lookup (request.device.index, request.name) = none) :
    Uncompiled record request := by
  have hprograms := h.programs request.device.index request.name
  rw [hlookup] at hprograms
  rw [← latest?_eq_none_iff]
  cases hlast : latest? record request.device.index request.name with
  | none => rfl
  | some last =>
      obtain ⟨number, hnumber, _⟩ := h.numbered last (h.latest?_spec hlast).1
      rw [hlast] at hprograms
      cases hnumber.symm.trans hprograms.symm

theorem latest_of_lookup (h : Ledger m record) {index : Int} {name : String}
    {program : Native.Program} (hlookup : m.openCL.programs.lookup (index, name) = some program) :
    ∃ last, latest? record index name = some last ∧ last.program? = some program.number := by
  refine Option.bind_eq_some_iff.mp ?_
  rw [← h.programs, hlookup]
  rfl

end Ledger

namespace Backend.OpenCL

theorem singleElement_silent (v : Value) : Silent (singleElement v) := by
  refine v.leaves_silent.bind fun leaves => ?_
  split
  · next s _ =>
    refine (v.collectAs_silent s).bind fun t => ?_
    split
    · exact .ok _
    · exact .error rfl
  · split
    · exact .ok _
    · exact .error rfl

theorem hostSide_silent (v : Value) (readOnly : Bool) : Silent (hostSide v readOnly) := by
  have hcopied : Silent (v.collect >>= fun t => .ok (HostSide.mk (dimensioned t) .separate)) :=
    v.collect_silent.bind fun _ => .ok _
  cases v with
  | array a => exact .ok _
  | atom a => exact hcopied
  | list items => exact hcopied

/-- The setup lets some operation of a launch fail with a text. -/
def Says (s : Setup) (text : String) : Prop :=
  (∃ number, s.bufferError number = some text) ∨ s.runError = some text ∨
    ∃ number, s.copyError number = some text

/-- An argument is refused without a text, or with one of a native operation. -/
theorem Refused.reason {s : Setup} {arg : Value} {readOnly : Bool} {cause : KernelError}
    (h : Refused s arg readOnly (.kernel cause)) :
    ∃ text, cause = .execution text ∧ Says s text := by
  cases h with
  | unclear unclear =>
      cases readOnly with
      | true => cases arg.isSingle_silent _ unclear
      | false => cases unclear
  | noElement _ noElement => cases singleElement_silent arg _ noElement
  | noHostSide _ noSide => cases hostSide_silent arg readOnly _ noSide
  | noBuffer _ noBuffer => exact ⟨_, rfl, .inl ⟨_, noBuffer⟩⟩

theorem Broken.reason {s : Setup} {cause : KernelError} (h : Broken s (.kernel cause)) :
    ∃ text, cause = .execution text ∧ Says s text := by
  rcases h with ⟨why, hwhy, heq⟩ | ⟨number, why, hwhy, heq⟩
  · cases heq
    exact ⟨why, rfl, .inr (.inl hwhy)⟩
  · cases heq
    exact ⟨why, rfl, .inr (.inr ⟨number, hwhy⟩)⟩

theorem Refused.text {s : Setup} {arg : Value} {readOnly : Bool} {text : String}
    (h : Refused s arg readOnly (.kernel (.execution text))) : Says s text := by
  obtain ⟨_, heq, hsays⟩ := h.reason
  cases heq
  exact hsays

theorem Broken.text {s : Setup} {text : String} (h : Broken s (.kernel (.execution text))) :
    Says s text := by
  obtain ⟨_, heq, hsays⟩ := h.reason
  cases heq
  exact hsays

/-- The outcomes of a launch with their native calls, by the compilations on record. -/
inductive RunsLast (record : List Exchange) (s : Setup) (request : RunRequest) :
    Except Failure Reply → List Note → Prop where
  | uncompiled (uncompiled : Uncompiled record request) :
      RunsLast record s request (.error (notCompiled request)) []
  /-- There is a program, but an argument cannot be handed to it. -/
  | refused {last : Compilation} {item : Value × Bool} {e : Failure} {notes : List Note}
      (compiled : latest? record request.device.index request.name = some last)
      (mem : item ∈ flagged request) (refused : Refused s item.1 item.2 e)
      (calls : notes.filterMap Note.call? = []) : RunsLast record s request (.error e) notes
  /-- The program is called, once. -/
  | called {last : Compilation} {c : Native.Call} {outcome : Except Failure Reply}
      {notes : List Note}
      (compiled : latest? record request.device.index request.name = some last)
      (program : last.program? = some c.program) (kernel : c.kernel = request.name)
      (calls : notes.filterMap Note.call? = [c]) (broken : ∀ e, outcome = .error e → Broken s e) :
      RunsLast record s request outcome notes

theorem no_calls {notes : List Note} (h : ∀ c, .native (.call c) ∉ notes) :
    notes.filterMap Note.call? = [] :=
  List.eq_nil_iff_forall_not_mem.mpr fun c hc => h c (mem_calls.mp hc)

theorem Running.runsLast {request : RunRequest} {w after : World Machine}
    {outcome : Except Failure Reply} {notes : List Note} {record : List Exchange}
    (h : Running request w outcome notes after) (hledger : Ledger w.state record) :
    RunsLast record w.state.setup request outcome notes := by
  cases h with
  | unknown unknown => exact .uncompiled (hledger.uncompiled_of_lookup unknown)
  | refused known opens _ creates mem refused =>
      obtain ⟨last, hlast, _⟩ := hledger.latest_of_lookup known
      refine .refused hlast mem refused ?_
      rw [List.filterMap_append, no_calls fun _ => opens.no_call, no_calls fun _ => creates.no_call]
      rfl
  | @called program _ _ opened _ _ _ _ _ staged _ known opens _ creates _ follow broken =>
      obtain ⟨last, hlast, hprogram⟩ := hledger.latest_of_lookup known
      refine .called (c := callOf request program opened.2 staged) hlast hprogram rfl ?_ broken
      rw [List.filterMap_append, List.filterMap_append, no_calls fun _ => opens.no_call,
        no_calls fun _ => creates.no_call, List.filterMap_cons,
        no_calls fun _ => no_call_of_follow follow]
      rfl

/-- A launch is refused for want of a program if and only if there has been no
compilation, as long as no native operation says the same. -/
theorem RunsLast.uncompiled_iff {record : List Exchange} {s : Setup} {request : RunRequest}
    {outcome : Except Failure Reply} {notes : List Note}
    (h : RunsLast record s request outcome notes) (hother : ¬ Says s (uncompiledReport request)) :
    outcome = .error (notCompiled request) ↔ Uncompiled record request := by
  have hcompiled {last : Compilation}
      (hlast : latest? record request.device.index request.name = some last) :
      ¬ Uncompiled record request := by
    rw [← latest?_eq_none_iff, hlast]
    exact nofun
  cases h with
  | uncompiled uncompiled => exact ⟨fun _ => uncompiled, fun _ => rfl⟩
  | refused compiled _ refused =>
      refine ⟨fun heq => ?_, fun hnone => absurd hnone (hcompiled compiled)⟩
      cases heq
      exact absurd refused.text hother
  | called compiled _ _ _ broken =>
      refine ⟨fun heq => ?_, fun hnone => absurd hnone (hcompiled compiled)⟩
      exact absurd (broken _ heq).text hother

end Backend.OpenCL

/-- The program table is a last-writer map from device index and kernel name to programs. -/
structure LastWriter (w : World (Recorded Machine)) : Prop where
  /-- A launch runs the last compilation of its kernel, and adds its exchange to the
  record. -/
  runs : ∀ request, ∃ outcome notes after,
    (openCL.recording.run request).perform w = (outcome, after) ∧
    after.state.record = w.state.record ++ [.run request notes] ∧
    OpenCL.RunsLast w.state.record w.state.state.setup request outcome notes
  /-- A launch is refused as not compiled exactly when no compilation has reported its
  kernel. -/
  refuses : ∀ request, ¬ OpenCL.Says w.state.state.setup (OpenCL.uncompiledReport request) →
    (((openCL.recording.run request).perform w).1 = .error (OpenCL.notCompiled request) ↔
      Uncompiled w.state.record request)
  /-- A compilation that fails leaves all programs as they are. -/
  failures : ∀ request e after, (openCL.recording.compile request).perform w = (.error e, after) →
    after.state.state.openCL.programs = w.state.state.openCL.programs ∧
    ∀ index name, latest? after.state.record index name = latest? w.state.record index name
  /-- For each index there is nothing at all, or one context and one queue for all
  that is done. -/
  homes : ∀ index, notesFor w.state.record index = [] ∨
    ∃ context queue, Home context queue (notesFor w.state.record index)

namespace Request

/-- What a record tells of programs, contexts and queues. -/
def Kept (w : World (Recorded Machine)) : Prop :=
  Ledger.InWorld w ∧ Housed w.state.state w.state.record

theorem kept_answered {w : World (Recorded Machine)} (h : Kept w) (r : Request) :
    Kept (answered w r) := by
  obtain ⟨hledger, hhoused⟩ := h
  cases r with
  | compile request =>
      refine ⟨Ledger.compile_preserves request w hledger, ?_⟩
      obtain ⟨outcome, notes, after, hperform, hcompiling⟩ := OpenCL.compile_recorded request w
      change Housed ((openCL.recording.compile request).perform w).2.state.state
        ((openCL.recording.compile request).perform w).2.state.record
      rw [hperform]
      exact Housed.snoc_compile (w := w.erased) hhoused hcompiling
  | run request =>
      refine ⟨Ledger.run_preserves request w hledger, ?_⟩
      obtain ⟨outcome, notes, after, hperform, hrunning⟩ := OpenCL.run_recorded request w
      change Housed ((openCL.recording.run request).perform w).2.state.state
        ((openCL.recording.run request).perform w).2.state.record
      rw [hperform]
      exact Housed.snoc_run (w := w.erased) hhoused hrunning
  | surroundings files setup => exact ⟨hledger.congr rfl rfl, hhoused.congr rfl⟩

theorem kept_allAnswered {w : World (Recorded Machine)} (h : Kept w) (requests : List Request) :
    Kept (allAnswered w requests) := by
  induction requests generalizing w with
  | nil => exact h
  | cons r rest ih => exact ih (kept_answered h r)

theorem Kept.lastWriter {w : World (Recorded Machine)} (h : Kept w) : LastWriter w := by
  obtain ⟨hledger, hhoused⟩ := h
  have hruns (request : RunRequest) : ∃ outcome notes after,
      (openCL.recording.run request).perform w = (outcome, after) ∧
      after.state.record = w.state.record ++ [.run request notes] ∧
      OpenCL.RunsLast w.state.record w.state.state.setup request outcome notes := by
    obtain ⟨outcome, notes, after, hperform, hrunning⟩ := OpenCL.run_recorded request w
    exact ⟨outcome, notes, _, hperform, rfl, hrunning.runsLast (w := w.erased) hledger⟩
  refine ⟨hruns, fun request hother => ?_, fun request e after hfails => ?_, fun index => ?_⟩
  · obtain ⟨outcome, notes, after, hperform, _, hrun⟩ := hruns request
    rw [hperform]
    exact hrun.uncompiled_iff hother
  · obtain ⟨outcome, notes, compiled, hperform, hcompiling⟩ := OpenCL.compile_recorded request w
    cases hperform.symm.trans hfails
    refine ⟨?_, fun index name => latest?_snoc_none rfl index name⟩
    cases hcompiling with
    | unread => rfl
    | broken _ opens openCL => exact (congrArg _ openCL).trans opens.programs_eq
  · cases hopen : w.state.state.openCL.queues.lookup index with
    | none => exact .inl ((hhoused index).unopened hopen)
    | some opened => exact .inr ⟨opened.1, opened.2, (hhoused index).home _ _ hopen⟩

/-- After any compile and launch requests for any devices, successful or not, the program
table holds what was compiled last, and each device index has one context and one queue. -/
theorem allAnswered_lastWriter (m : Machine) (requests : List Request) :
    LastWriter (allAnswered (unasked m) requests) := by
  have hinitial : Kept (unasked m) := ⟨.nil rfl, .nil rfl⟩
  exact (kept_allAnswered hinitial requests).lastWriter

/-- Of two compilations of the same source, with one that fails behind them, the
second one is launched. -/
example :
    let device : Device := ⟨0, "P", Life.sampleNative "first"⟩
    let machine : Machine := { files := { temporary := ["kernel void f()"] } }
    let compile (options : String) : Request := .compile ⟨device, .temporary 0, options⟩
    let requests : List Request := [compile "", compile "-DN=2",
      .surroundings machine.files { buildError := some "no" }, compile "-DN=3",
      .surroundings machine.files {}, .run ⟨device, "f", [0, 0, 0, 1, 1, 1], [1, 1, 1], [], []⟩]
    ((allAnswered (unasked machine) requests).state.record.flatMap Exchange.calls).map
      (·.program) = [1] := by
  decide +kernel

end Request

end KernelLaunch
