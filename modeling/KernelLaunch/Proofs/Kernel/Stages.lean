import KernelLaunch.Proofs.Except
import KernelLaunch.Proofs.Kernel.Exchanges

/-!
The stages of a call. Up to the launch request a call only computes: the block check,
splitting, casting and the read-only flags. The rest is determined by these prepared
arguments and by the reply.
-/

namespace KernelLaunch.Kernel

open Host Signature Backend

variable {σ : Type}

/-- The prepared arguments of a launch request. -/
structure Prepared where
  /-- Which of them were complex. -/
  complex : List Bool
  passed : List Passed
  /-- Which of them are only read. -/
  flags : List Bool

/-- The arguments of a call as they are passed on. -/
def passedOn (k : Kernel) (args : List Value) (inPlace : Bool) (complex : List Bool) :
    Except Failure (List Passed) := do
  let encoded ← encodeAll complex args
  castAll k.name k.parameters inPlace encoded

def prepare (k : Kernel) (device : Device) (args : List Value) (inPlace : Bool) :
    Except Failure Prepared := do
  checkBlock k.geometry.block device
  let complex ← args.mapM Value.isComplex
  let passed ← k.passedOn args inPlace complex
  let flags ← readOnlyAll k.parameters (passed.map (·.value))
  return ⟨complex, passed, flags⟩

/-- The rest of a launch. -/
def finish (b : Backend σ) (k : Kernel) (device : Device) (args : List Value) (p : Prepared) :
    Action σ CallResult := do
  let reply ← b.askRun (k.runRequest device p.passed p.flags)
  return ⟨← outputs k.parameters p.complex p.passed reply.results, argsAfter args p.passed reply.args⟩

/-- What passes between a kernel and its backend during a call. -/
def Called.exchanges (c : Called (Recorded σ)) (w : World (Recorded σ)) : List Exchange :=
  c.world.state.record.drop w.state.record.length

/-- The requests to launch during a call. -/
def Called.launches (c : Called (Recorded σ)) (w : World (Recorded σ)) : List RunRequest :=
  (c.exchanges w).filterMap Exchange.runRequest?

/-- The requests to compile during a call. -/
def Called.compilations (c : Called (Recorded σ)) (w : World (Recorded σ)) :
    List CompileRequest :=
  (c.exchanges w).filterMap Exchange.compileRequest?

/-- Marshalling leaves a warning at most, and none in a copying call. -/
theorem marshal_perform (k : Kernel) (args : List Value) (inPlace : Bool) {complex : List Bool}
    (hcomplex : args.mapM Value.isComplex = .ok complex) (w : World σ) :
    ∃ before, before.state = w.state ∧ (inPlace = false → before = w) ∧
      (k.marshal args inPlace).perform w =
        ((k.passedOn args inPlace complex).map (complex, ·), before) := by
  have hrest (v : World σ) : (do
      let encoded ← encodeAll complex args
      let passed ← castAll k.name k.parameters inPlace encoded
      return (complex, passed) : Action σ (List Bool × List Passed)).perform v =
        ((k.passedOn args inPlace complex).map (complex, ·), v) := by
    unfold passedOn
    simp only [Action.perform_bind, Action.perform_lift]
    cases encodeAll complex args with
    | error e => rfl
    | ok encoded =>
        dsimp only
        cases hcast : castAll k.name k.parameters inPlace encoded with
        | error e => simp [bind, Except.bind, hcast, Except.map]
        | ok passed => simp [bind, Except.bind, hcast, Except.map]
  unfold marshal
  rw [Action.perform_bind, Action.perform_lift, hcomplex]
  dsimp only
  by_cases hwarn : (inPlace && complex.any id) = true
  · have hinPlace : inPlace ≠ false := by
      rintro rfl
      cases hwarn
    refine ⟨{ w with notes := w.notes ++ [.warning copyWarning] }, rfl,
      fun h => absurd h hinPlace, ?_⟩
    rw [if_pos hwarn, Action.perform_bind, Action.perform_note]
    exact hrest _
  · refine ⟨w, rfl, fun _ => rfl, ?_⟩
    rw [if_neg hwarn]
    exact hrest w

/-- A launch prepares its arguments and goes on with them. -/
theorem launch_perform (b : Backend σ) (k : Kernel) (device : Device) (args : List Value)
    (inPlace : Bool) (w : World σ) :
    ∃ before, before.state = w.state ∧ (inPlace = false → before = w) ∧
      (k.launch b device args inPlace).perform w =
        match k.prepare device args inPlace with
        | .error e => (.error e, before)
        | .ok p => (k.finish b device args p).perform before := by
  unfold launch prepare
  rw [Action.perform_bind, Action.perform_lift]
  cases checkBlock k.geometry.block device with
  | error e => exact ⟨w, rfl, fun _ => rfl, rfl⟩
  | ok fits =>
      cases hcomplex : args.mapM Value.isComplex with
      | error e =>
          have hmarshal : (k.marshal args inPlace).perform w = (.error e, w) := by
            simp [marshal, Action.perform_bind, hcomplex]
          refine ⟨w, rfl, fun _ => rfl, ?_⟩
          dsimp only
          rw [Action.perform_bind, hmarshal]
          rfl
      | ok complex =>
          obtain ⟨before, hstate, hsame, hmarshal⟩ := k.marshal_perform args inPlace hcomplex w
          refine ⟨before, hstate, hsame, ?_⟩
          dsimp only
          rw [Action.perform_bind, hmarshal]
          cases hpassed : k.passedOn args inPlace complex with
          | error e => simp [Except.map, bind, Except.bind, hpassed]
          | ok passed =>
              simp only [Except.map]
              rw [Action.perform_bind, Action.perform_lift]
              cases hflags : readOnlyAll k.parameters (passed.map (·.value)) with
              | error e => simp [bind, Except.bind, hpassed, hflags]
              | ok flags => simp [bind, Except.bind, pure, Except.pure, hpassed, hflags, finish, runRequest]

/-- Until a kernel is ready nothing is launched, and only the record of its
build can have changed. -/
theorem ready_record (b : Backend σ) (k : Kernel) (w : World (Recorded σ)) :
    ∃ exchanges, ((k.ready b.recording).perform w).2.state.record = w.state.record ++ exchanges ∧
      (∀ e ∈ exchanges, e.runRequest? = none) ∧
      ∀ built device, ((k.ready b.recording).perform w).1 = .ok (built, device) →
        k.device = some device ∧ built = { k with built := built.built } := by
  cases hbuilt : k.builtFor? with
  | error e =>
      rw [ready_of_error b.recording w hbuilt]
      exact ⟨[], by simp, by simp, by simp⟩
  | ok for? =>
      cases for? with
      | some own =>
          rw [ready_of_built b.recording w hbuilt]
          refine ⟨[], by simp, by simp, ?_⟩
          rintro built device heq
          cases heq
          exact ⟨(builtFor?_eq_some_iff.mp hbuilt).1, rfl⟩
      | none =>
          rw [ready_of_unbuilt b.recording w hbuilt]
          obtain ⟨exchanges, hrecord, hbuilding⟩ := build_record b k .absent
            { w with notes := w.notes ++ [.info k.unbuiltReport] }
          refine ⟨exchanges, hrecord, ?_, ?_⟩
          · intro e he
            split at hbuilding
            · exact hbuilding.1.no_run he
            · exact hbuilding.no_run he
          · intro built device heq
            rw [heq] at hbuilding
            obtain ⟨hbuilding, hfor⟩ := hbuilding
            have hdevice := (builtFor?_eq_some_iff.mp hfor).1
            cases hbuilding with
            | refused => exact ⟨hdevice, rfl⟩
            | failed => exact ⟨hdevice, rfl⟩
            | built => exact ⟨hdevice, rfl⟩

section Calls

variable {b : Backend σ} {k : Kernel} {args : List Value} {w : World σ}

theorem call_of_miscounted (hcount : args.length ≠ k.parameters.length) (inPlace : Bool) :
    k.call b args inPlace w =
      ⟨.error (.kernel (.argumentCount k.parameters.length k.declaration)), k, w⟩ :=
  if_pos hcount

theorem call_of_unready (hcount : args.length = k.parameters.length) {e : Failure}
    {after : World σ} (hready : (k.ready b).perform w = (.error e, after)) (inPlace : Bool) :
    k.call b args inPlace w = ⟨.error e, k, after⟩ := by
  rw [call, if_neg (not_not_intro hcount), hready]

theorem call_of_ready (hcount : args.length = k.parameters.length) {built : Kernel}
    {device : Device} {before : World σ}
    (hready : (k.ready b).perform w = (.ok (built, device), before)) (inPlace : Bool) :
    k.call b args inPlace w =
      ⟨((built.launch b device args inPlace).perform before).1, built,
        ((built.launch b device args inPlace).perform before).2⟩ := by
  rw [call, if_neg (not_not_intro hcount), hready]

end Calls

theorem finish_of_error {b : Backend σ} {k : Kernel} {device : Device} {args : List Value}
    {p : Prepared} {w after : World σ} {e : Failure}
    (h : (b.askRun (k.runRequest device p.passed p.flags)).perform w = (.error e, after)) :
    (k.finish b device args p).perform w = (.error e, after) := by
  rw [finish, Action.perform_bind, h]

theorem finish_of_reply {b : Backend σ} {k : Kernel} {device : Device} {args : List Value}
    {p : Prepared} {w after : World σ} {reply : Reply}
    (h : (b.askRun (k.runRequest device p.passed p.flags)).perform w = (.ok reply, after)) :
    (k.finish b device args p).perform w =
      ((outputs k.parameters p.complex p.passed reply.results).map
        (⟨·, argsAfter args p.passed reply.args⟩), after) := by
  rw [finish, Action.perform_bind, h]
  dsimp only
  rw [Action.perform_bind, Action.perform_lift]
  cases outputs k.parameters p.complex p.passed reply.results <;> rfl

/-- Whatever the answer, one request is recorded. -/
theorem finish_record (b : Backend σ) (k : Kernel) (device : Device) (args : List Value)
    (p : Prepared) (w : World (Recorded σ)) :
    ∃ events, ((k.finish b.recording device args p).perform w).2.state.record =
      w.state.record ++ [.run (k.runRequest device p.passed p.flags) events] := by
  obtain ⟨events, hrecord⟩ := askRun_record b (k.runRequest device p.passed p.flags) w
  refine ⟨events, ?_⟩
  rw [← hrecord]
  cases hrun : (b.recording.askRun (k.runRequest device p.passed p.flags)).perform w with
  | mk answer after =>
      cases answer with
      | error e => rw [finish_of_error hrun]
      | ok reply => rw [finish_of_reply hrun]

section Recorded

variable {b : Backend σ} {k built : Kernel} {device : Device} {args : List Value}
  {w before : World (Recorded σ)}

/-- Once a kernel is ready, a call is determined by its prepared arguments. -/
theorem call_perform (hcount : args.length = k.parameters.length)
    (hready : (k.ready b.recording).perform w = (.ok (built, device), before)) (inPlace : Bool) :
    ∃ asked, asked.state = before.state ∧ (inPlace = false → asked = before) ∧
      k.call b.recording args inPlace w =
        match k.prepare device args inPlace with
        | .error e => ⟨.error e, built, asked⟩
        | .ok p => ⟨((k.finish b.recording device args p).perform asked).1, built,
            ((k.finish b.recording device args p).perform asked).2⟩ := by
  obtain ⟨_, _, _, hbuilt⟩ := ready_record b k w
  rw [hready] at hbuilt
  obtain ⟨_, hbuilt⟩ := hbuilt built device rfl
  obtain ⟨asked, hstate, hcopying, hlaunch⟩ :=
    launch_perform b.recording built device args inPlace before
  refine ⟨asked, hstate, hcopying, ?_⟩
  have hprepare : built.prepare device args inPlace = k.prepare device args inPlace := by
    rw [hbuilt]
    rfl
  have hfinish : built.finish b.recording device args = k.finish b.recording device args := by
    rw [hbuilt]
    rfl
  rw [call_of_ready hcount hready, hlaunch, hprepare, hfinish]
  cases k.prepare device args inPlace <;> rfl

/-- What is compiled during a call is compiled until the kernel is ready. -/
theorem call_compilations (hcount : args.length = k.parameters.length)
    (hready : (k.ready b.recording).perform w = (.ok (built, device), before)) (inPlace : Bool) :
    (k.call b.recording args inPlace w).compilations w =
      (before.state.record.drop w.state.record.length).filterMap Exchange.compileRequest? := by
  obtain ⟨exchanges, hrecord, _⟩ := ready_record b k w
  obtain ⟨asked, hstate, _, hcall⟩ := call_perform hcount hready inPlace
  rw [hready] at hrecord
  rw [hcall, Called.compilations, Called.exchanges]
  cases k.prepare device args inPlace with
  | error e =>
      dsimp only
      rw [hstate]
  | ok p =>
      obtain ⟨events, hrun⟩ := finish_record b k device args p asked
      dsimp only
      rw [hrun, hstate, hrecord, List.append_assoc, List.drop_left, List.drop_left,
        List.filterMap_append]
      exact List.append_nil _

/-- A call that cannot prepare its arguments fails with what is wrong with them
and launches nothing. -/
theorem call_refused (hcount : args.length = k.parameters.length)
    (hready : (k.ready b.recording).perform w = (.ok (built, device), before)) {inPlace : Bool}
    {e : Failure} (hprepare : k.prepare device args inPlace = .error e) :
    (k.call b.recording args inPlace w).outcome = .error e ∧
      (k.call b.recording args inPlace w).launches w = [] := by
  obtain ⟨exchanges, hrecord, hnone, _⟩ := ready_record b k w
  obtain ⟨asked, hstate, _, hcall⟩ := call_perform hcount hready inPlace
  rw [hready] at hrecord
  rw [hcall, hprepare]
  refine ⟨rfl, ?_⟩
  simp only [Called.launches, Called.exchanges]
  rw [hstate, hrecord, List.drop_left]
  exact List.filterMap_eq_nil_iff.mpr hnone

/-- A call gets as far as its request to launch. -/
structure Reaches (b : Backend σ) (k : Kernel) (args : List Value) (inPlace : Bool)
    (w : World (Recorded σ)) (device : Device) (before : World (Recorded σ)) (p : Prepared) :
    Prop where
  count : args.length = k.parameters.length
  hasDevice : k.device = some device
  ready : ∃ built, (k.ready b.recording).perform w = (.ok (built, device), before)
  prepared : k.prepare device args inPlace = .ok p

theorem reaches_of_ready (hcount : args.length = k.parameters.length)
    (hready : (k.ready b.recording).perform w = (.ok (built, device), before)) {inPlace : Bool}
    {p : Prepared} (hprepare : k.prepare device args inPlace = .ok p) :
    Reaches b k args inPlace w device before p := by
  obtain ⟨_, _, _, hbuilt⟩ := ready_record b k w
  rw [hready] at hbuilt
  exact ⟨hcount, (hbuilt built device rfl).1, ⟨built, hready⟩, hprepare⟩

/-- A call that gets as far launches once, with the arguments as prepared, and
what comes of it is determined by the answer. -/
theorem Reaches.launched {inPlace : Bool} {p : Prepared}
    (h : Reaches b k args inPlace w device before p) :
    (k.call b.recording args inPlace w).launches w = [k.runRequest device p.passed p.flags] ∧
      ∃ asked, asked.state = before.state ∧ (inPlace = false → asked = before) ∧
        (k.finish b.recording device args p).perform asked =
          ((k.call b.recording args inPlace w).outcome,
            (k.call b.recording args inPlace w).world) := by
  obtain ⟨hcount, _, ⟨built, hready⟩, hprepare⟩ := h
  obtain ⟨exchanges, hrecord, hnone, _⟩ := ready_record b k w
  obtain ⟨asked, hstate, hcopying, hcall⟩ := call_perform hcount hready inPlace
  obtain ⟨events, hrun⟩ := finish_record b k device args p asked
  rw [hready] at hrecord
  rw [hcall, hprepare]
  refine ⟨?_, asked, hstate, hcopying, rfl⟩
  simp only [Called.launches, Called.exchanges]
  rw [hrun, hstate, hrecord, List.append_assoc, List.drop_left, List.filterMap_append,
    List.filterMap_eq_nil_iff.mpr hnone]
  rfl

/-- A call that does not get as far fails and launches nothing. -/
theorem reaches_or_fails (b : Backend σ) (k : Kernel) (args : List Value) (inPlace : Bool)
    (w : World (Recorded σ)) :
    (∃ device before p, Reaches b k args inPlace w device before p) ∨
      (∃ e, (k.call b.recording args inPlace w).outcome = .error e) ∧
        (k.call b.recording args inPlace w).launches w = [] := by
  by_cases hcount : args.length = k.parameters.length
  · obtain ⟨exchanges, hrecord, hnone, _⟩ := ready_record b k w
    cases hready : (k.ready b.recording).perform w with
    | mk answer before =>
        rw [hready] at hrecord
        cases answer with
        | error e =>
            refine .inr ⟨⟨e, by rw [call_of_unready hcount hready]⟩, ?_⟩
            rw [call_of_unready hcount hready, Called.launches, Called.exchanges, hrecord,
              List.drop_left]
            exact List.filterMap_eq_nil_iff.mpr hnone
        | ok pair =>
            obtain ⟨built, device⟩ := pair
            cases hprepare : k.prepare device args inPlace with
            | error e =>
                obtain ⟨houtcome, hlaunches⟩ := call_refused hcount hready hprepare
                exact .inr ⟨⟨e, houtcome⟩, hlaunches⟩
            | ok p =>
                exact .inl ⟨device, before, p, reaches_of_ready hcount hready hprepare⟩
  · refine .inr ⟨⟨_, by rw [call_of_miscounted hcount]⟩, ?_⟩
    rw [call_of_miscounted hcount]
    simp [Called.launches, Called.exchanges]

end Recorded

end KernelLaunch.Kernel
