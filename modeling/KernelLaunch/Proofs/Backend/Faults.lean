import KernelLaunch.Proofs.Backend.Operations

/-!
Native failures within a launch. A launch creates a buffer for each argument that is not
passed by value, calls the kernel once and copies back each buffer that is not read only.
Any of these operations may fail, at any argument, and the launch then fails with the
reported reason. A launch in which none fails goes through to its end, unless an argument
cannot be converted to an array.
-/

namespace KernelLaunch.Backend.OpenCL

open Host

/-- How an argument is passed to the native kernel. -/
inductive Passage where
  | value (v : Value)
  | buffer (host : HostSide)

/-- How an argument goes to native code, if it can be converted. -/
def passage (arg : Value) (readOnly : Bool) : Except Failure Passage := do
  if ← byValue arg readOnly then return .value (← singleElement arg)
  else return .buffer (← hostSide arg readOnly)

/-- Hands over an argument that has been converted. -/
def hand (context : Nat) (readOnly : Bool) : Passage → Action Machine Staged
  | .value v => return ⟨.value v, none⟩
  | .buffer host => do
      let number ← launching (Native.createBuffer context (accessFor readOnly) host.tensor)
      return ⟨.buffer number, some host⟩

/-- An argument is converted before anything is done with it. -/
theorem stage_eq (context : Nat) (arg : Value) (readOnly : Bool) :
    stage context arg readOnly = liftM (passage arg readOnly) >>= hand context readOnly := by
  unfold stage passage
  cases byValue arg readOnly with
  | error e => rfl
  | ok single =>
      cases single with
      | true => cases singleElement arg <;> rfl
      | false => cases hostSide arg readOnly <;> rfl

section Operations

variable {w after : World Machine}

theorem launching_fails {α : Type} {operation : Action Machine (Except String α)} {why : String}
    (h : operation.perform w = (.ok (.error why), after)) :
    (launching operation).perform w = (.error (.kernel (.execution why)), after) := by
  rw [launching_perform, h]

theorem launching_ok_iff {α : Type} {operation : Action Machine (Except String α)} {a : α} :
    (launching operation).perform w = (.ok a, after) ↔
      operation.perform w = (.ok (.ok a), after) := by
  rw [launching_perform]
  rcases operation.perform w with ⟨e | why | b, next⟩ <;> simp

/-- Native operations give a reason instead of failing themselves. -/
theorem native_answers {α : Type} {operation : Action Machine (Except String α)}
    {P : Except String α → Prop}
    (h : ∃ answer after, operation.perform w = (.ok answer, after) ∧ P answer) :
    (∃ why failed, operation.perform w = (.ok (.error why), failed)) ∨
      ∃ a after, operation.perform w = (.ok (.ok a), after) := by
  obtain ⟨why | a, after, h, -⟩ := h
  · exact .inl ⟨why, after, h⟩
  · exact .inr ⟨a, after, h⟩

theorem createBuffer_answers (context : Nat) (access : Native.Access) (content : Tensor)
    (w : World Machine) : ∃ answer after,
      (Native.createBuffer context access content).perform w = (.ok answer, after) ∧
      ∀ why, answer = .error why → ∃ number, w.state.setup.bufferError number = some why := by
  unfold Native.createBuffer
  simp only [Action.perform_bind, Action.perform_state]
  cases hwhy : w.state.setup.bufferError w.state.objects.buffers.length with
  | some why =>
      refine ⟨_, _, rfl, ?_⟩
      rintro _ ⟨⟩
      exact ⟨_, hwhy⟩
  | none => exact ⟨_, _, rfl, nofun⟩

theorem call_answers (p : Native.Program) (c : Native.Call) (w : World Machine) :
    ∃ answer after, (Native.call p c).perform w = (.ok answer, after) ∧
      ∀ why, answer = .error why → w.state.setup.runError = some why := by
  unfold Native.call
  simp only [Action.perform_bind, Action.perform_note, Action.perform_state]
  cases hwhy : w.state.setup.runError with
  | some why =>
      refine ⟨_, _, rfl, ?_⟩
      rintro _ ⟨⟩
      rfl
  | none => exact ⟨_, _, rfl, nofun⟩

theorem copy_answers (queue number : Nat) (missing : Tensor) (w : World Machine) :
    ∃ answer after, (Native.copy queue number missing).perform w = (.ok answer, after) ∧
      ∀ why, answer = .error why → w.state.setup.copyError number = some why := by
  unfold Native.copy
  simp only [Action.perform_bind, Action.perform_note, Action.perform_state]
  cases hwhy : w.state.setup.copyError number with
  | some why =>
      refine ⟨_, _, rfl, ?_⟩
      rintro _ ⟨⟩
      rfl
  | none => exact ⟨_, _, rfl, nofun⟩

theorem stage_of_passage {context : Nat} {arg : Value} {readOnly : Bool} {p : Passage}
    (h : passage arg readOnly = .ok p) :
    (stage context arg readOnly).perform w = (hand context readOnly p).perform w := by
  rw [stage_eq, Action.perform_bind, Action.perform_lift, h]

/-- An argument is not handed over if it cannot be converted, or if its buffer cannot be
created. -/
theorem stage_error {context : Nat} {arg : Value} {readOnly : Bool} {e : Failure}
    (h : (stage context arg readOnly).perform w = (.error e, after)) :
    passage arg readOnly = .error e ∨ ∃ host why failed, passage arg readOnly = .ok (.buffer host) ∧
      (Native.createBuffer context (accessFor readOnly) host.tensor).perform w =
        (.ok (.error why), failed) := by
  cases hpassage : passage arg readOnly with
  | error e' =>
      rw [stage_eq, Action.perform_bind, Action.perform_lift, hpassage] at h
      cases h
      exact .inl rfl
  | ok p =>
      rw [stage_of_passage hpassage] at h
      cases p with
      | value v => cases h
      | buffer host =>
          rcases native_answers (createBuffer_answers context (accessFor readOnly) host.tensor w)
            with ⟨why, failed, hfails⟩ | ⟨number, next, hnumber⟩
          · exact .inr ⟨host, why, failed, rfl, hfails⟩
          · unfold hand at h
            rw [Action.perform_bind_goes (launching_ok_iff.mpr hnumber)] at h
            cases h

/-- Nothing is read back if the buffer of an argument that is not read only cannot be. -/
theorem fetch_error {queue : Nat} {readOnly : Bool} {s : Staged} {e : Failure}
    (h : (fetch queue readOnly s).perform w = (.error e, after)) :
    readOnly = false ∧ ∃ number host why failed, s = ⟨.buffer number, some host⟩ ∧
      (Native.copy queue number host.tensor).perform w = (.ok (.error why), failed) := by
  obtain ⟨argument, side⟩ := s
  cases side with
  | none => cases h
  | some host =>
      cases argument with
      | value v => cases h
      | buffer number =>
          cases readOnly with
          | true => cases h
          | false =>
              rcases native_answers (copy_answers queue number host.tensor w) with
                ⟨why, failed, hfails⟩ | ⟨content, next, hcontent⟩
              · exact ⟨rfl, number, host, why, failed, rfl, hfails⟩
              · have hread : (fetch queue false ⟨.buffer number, some host⟩).perform w =
                    (.ok (some ⟨host, content⟩), next) :=
                  Action.perform_bind_goes (launching_ok_iff.mpr hcontent)
                cases hread.symm.trans h

end Operations

/-- The arguments of a launch handed over, one after the other. -/
def stageAll (context : Nat) (items : List (Value × Bool)) : Action Machine (List Staged) :=
  items.mapM fun (arg, readOnly) => stage context arg readOnly

theorem stageAll_cons (context : Nat) (arg : Value) (readOnly : Bool)
    (items : List (Value × Bool)) :
    stageAll context ((arg, readOnly) :: items) = (do
      let s ← stage context arg readOnly
      let staged ← stageAll context items
      return s :: staged) := List.mapM_cons

section Launches

variable {request : RunRequest} {w : World Machine}

/-- A launch of a known program has its queue, and has handed over some arguments. -/
structure HandsOver (request : RunRequest) (w : World Machine) (items : List (Value × Bool))
    (program : Native.Program) (opened : Nat × Nat) (before : World Machine) (staged : List Staged)
    (reached : World Machine) : Prop where
  known : w.state.openCL.programs.lookup (request.device.index, request.name) = some program
  opens : (queueFor request.device).perform w = (.ok opened, before)
  handed : (stageAll opened.1 items).perform before = (.ok staged, reached)

/-- The first native failure of a launch: the buffer of some argument cannot be created, the
kernel cannot be enqueued, or the buffer of some argument cannot be copied back. -/
inductive NativeFault (request : RunRequest) (w : World Machine) (why : String) : Prop where
  | creating {program : Native.Program} {opened : Nat × Nat} {before reached failed : World Machine}
      {staged : List Staged} {earlier later : List (Value × Bool)} {arg : Value} {readOnly : Bool}
      {host : HostSide} (reach : HandsOver request w earlier program opened before staged reached)
      (args : flagged request = earlier ++ (arg, readOnly) :: later)
      (needed : passage arg readOnly = .ok (.buffer host))
      (fails : (Native.createBuffer opened.1 (accessFor readOnly) host.tensor).perform reached =
        (.ok (.error why), failed))
  | calling {program : Native.Program} {opened : Nat × Nat} {before reached failed : World Machine}
      {staged : List Staged}
      (reach : HandsOver request w (flagged request) program opened before staged reached)
      (fails : (Native.call program (callOf request program opened.2 staged)).perform reached =
        (.ok (.error why), failed))
  | reading {program : Native.Program} {opened : Nat × Nat}
      {before reached answered copied failed : World Machine} {staged : List Staged}
      {earlier later : List ((Value × Bool) × Staged)} {arg : Value} {number : Nat}
      {host : HostSide} {out : List (Option ReadBack)}
      (reach : HandsOver request w (flagged request) program opened before staged reached)
      (answers : (Native.call program (callOf request program opened.2 staged)).perform reached =
        (.ok (.ok ()), answered))
      (args : (flagged request).zip staged =
        earlier ++ ((arg, false), ⟨.buffer number, some host⟩) :: later)
      (copies : (fetchAll opened.2 earlier).perform answered = (.ok out, copied))
      (fails : (Native.copy opened.2 number host.tensor).perform copied =
        (.ok (.error why), failed))

/-- A launch without a program does nothing. -/
theorem transfer_of_unknown
    (unknown : w.state.openCL.programs.lookup (request.device.index, request.name) = none) :
    (transfer request).perform w = (.error (notCompiled request), w) := by
  unfold transfer
  rw [Action.perform_bind, Action.perform_state]
  dsimp only
  rw [unknown]
  rfl

/-- The parts of a launch of a known program. -/
theorem transfer_of_known {program : Native.Program}
    (known : w.state.openCL.programs.lookup (request.device.index, request.name) = some program) :
    (transfer request).perform w = (queueFor request.device >>= fun opened =>
      stageAll opened.1 (flagged request) >>= callThrough request program opened.2).perform w := by
  unfold transfer
  rw [Action.perform_bind, Action.perform_state]
  dsimp only
  rw [known]
  rfl

/-- A launch whose arguments cannot all be handed over. -/
theorem transfer_of_stage_error {program : Native.Program} {opened : Nat × Nat}
    {before reached failed : World Machine} {staged : List Staged}
    {earlier later : List (Value × Bool)} {arg : Value} {readOnly : Bool}
    {e : Failure} (reach : HandsOver request w earlier program opened before staged reached)
    (args : flagged request = earlier ++ (arg, readOnly) :: later)
    (fails : (stage opened.1 arg readOnly).perform reached = (.error e, failed)) :
    (transfer request).perform w = (.error e, failed) := by
  have hstops : (stageAll opened.1 (flagged request)).perform before = (.error e, failed) := by
    rw [args]
    exact Action.mapM_stops reach.handed fails
  rw [transfer_of_known reach.known, Action.perform_bind_goes reach.opens,
    Action.perform_bind_stops hstops]

/-- A launch whose arguments have all been handed over. -/
theorem transfer_of_handed {program : Native.Program} {opened : Nat × Nat} {before reached : World Machine}
    {staged : List Staged}
    (reach : HandsOver request w (flagged request) program opened before staged reached) :
    (transfer request).perform w = (callThrough request program opened.2 staged).perform reached := by
  rw [transfer_of_known reach.known, Action.perform_bind_goes reach.opens,
    Action.perform_bind_goes reach.handed]

/-- The failure of a native operation is the failure of the launch. -/
theorem NativeFault.transfer_fails {why : String} (h : NativeFault request w why) :
    ∃ failed, (transfer request).perform w = (.error (.kernel (.execution why)), failed) := by
  cases h with
  | @creating program opened before reached failed staged earlier later arg readOnly host reach args
      needed fails =>
      have hstage : (stage opened.1 arg readOnly).perform reached =
          (.error (.kernel (.execution why)), failed) := by
        rw [stage_of_passage needed]
        exact Action.perform_bind_stops (launching_fails fails)
      exact ⟨failed, transfer_of_stage_error reach args hstage⟩
  | @calling program opened before reached failed staged reach fails =>
      refine ⟨failed, ?_⟩
      rw [transfer_of_handed reach]
      exact Action.perform_bind_stops (launching_fails fails)
  | @reading program opened before reached answered copied failed staged earlier later arg number
      host out reach answers args copies fails =>
      have hfetch : (fetch opened.2 false ⟨.buffer number, some host⟩).perform copied =
          (.error (.kernel (.execution why)), failed) :=
        Action.perform_bind_stops (launching_fails fails)
      have hstops : (fetchAll opened.2 ((flagged request).zip staged)).perform answered =
          (.error (.kernel (.execution why)), failed) := by
        rw [args]
        exact Action.mapM_stops copies hfetch
      refine ⟨failed, ?_⟩
      rw [transfer_of_handed reach]
      unfold callThrough
      rw [Action.perform_bind_goes (launching_ok_iff.mpr answers)]
      exact Action.perform_bind_stops hstops

theorem NativeFault.run_fails {why : String} (h : NativeFault request w why) :
    ∃ failed, (run request).perform w = (.error (.kernel (.execution why)), failed) := by
  obtain ⟨failed, htransfer⟩ := h.transfer_fails
  refine ⟨failed, ?_⟩
  rw [run_perform_eq, htransfer]
  rfl

theorem HandsOver.setup_eq {items : List (Value × Bool)} {program : Native.Program} {opened : Nat × Nat}
    {before reached : World Machine} {staged : List Staged}
    (h : HandsOver request w items program opened before staged reached) :
    reached.state.setup = w.state.setup := by
  obtain ⟨_, _, _, hopen, hopened⟩ := queueFor_perform request.device w
  obtain ⟨_, _, _, hstage, hadds, -⟩ := stageAll_perform opened.1 items before
  cases h.opens.symm.trans hopen
  cases h.handed.symm.trans hstage
  exact hadds.setup.trans hopened.setup_eq

/-- Whether a native operation fails depends on the setup of the machine only. -/
theorem NativeFault.cause {why : String} (h : NativeFault request w why) :
    (∃ number, w.state.setup.bufferError number = some why) ∨
      w.state.setup.runError = some why ∨
      ∃ number, w.state.setup.copyError number = some why := by
  cases h with
  | @creating program opened before reached failed staged earlier later arg readOnly host reach args
      needed fails =>
      obtain ⟨answer, after, hcreate, hwhy⟩ :=
        createBuffer_answers opened.1 (accessFor readOnly) host.tensor reached
      cases hcreate.symm.trans fails
      exact .inl (reach.setup_eq ▸ hwhy why rfl)
  | @calling program opened before reached failed staged reach fails =>
      obtain ⟨answer, after, hcall, hwhy⟩ :=
        call_answers program (callOf request program opened.2 staged) reached
      cases hcall.symm.trans fails
      exact .inr (.inl (reach.setup_eq ▸ hwhy why rfl))
  | @reading program opened before reached answered copied failed staged earlier later arg number
      host out reach answers args copies fails =>
      obtain ⟨answer, after, hcopy, hwhy⟩ := copy_answers opened.2 number host.tensor copied
      obtain ⟨_, _, _, hcopies, hkeeps, -⟩ := fetchAll_perform opened.2 earlier answered
      cases hcopy.symm.trans fails
      cases copies.symm.trans hcopies
      have hanswered : answered.state.setup = reached.state.setup := by
        rcases call_perform program (callOf request program opened.2 staged) reached with
          ⟨_, _, _, hcall, _⟩ | ⟨_, hcall, hadds⟩
        · cases (launching_ok_iff.mpr answers).symm.trans hcall
        · cases (launching_ok_iff.mpr answers).symm.trans hcall
          exact hadds.setup
      exact .inr (.inr ⟨number, by
        rw [← reach.setup_eq, ← hanswered, ← hkeeps.setup]
        exact hwhy why rfl⟩)

/-- Without a native failure a launch stops at an argument that cannot be converted, or goes
through to its end. -/
theorem transfer_cases {program : Native.Program}
    (known : w.state.openCL.programs.lookup (request.device.index, request.name) = some program) :
    (∃ why, NativeFault request w why) ∨
    (∃ earlier arg readOnly later opened before staged reached e failed,
      HandsOver request w earlier program opened before staged reached ∧
      flagged request = earlier ++ (arg, readOnly) :: later ∧ passage arg readOnly = .error e ∧
      (transfer request).perform w = (.error e, failed)) ∨
    ∃ opened before staged reached answered out left,
      HandsOver request w (flagged request) program opened before staged reached ∧
      (Native.call program (callOf request program opened.2 staged)).perform reached =
        (.ok (.ok ()), answered) ∧
      (fetchAll opened.2 ((flagged request).zip staged)).perform answered = (.ok out, left) ∧
      (transfer request).perform w =
        (.ok out, { left with notes := left.notes ++ [.native (.finish opened.2)] }) := by
  obtain ⟨opened, opening, before, opens, -⟩ := queueFor_perform request.device w
  rcases Action.mapM_ok_or_stops (fun (arg, readOnly) => stage opened.1 arg readOnly)
      (flagged request) before with ⟨staged, reached, handed⟩ |
      ⟨earlier, ⟨arg, readOnly⟩, later, staged, reached, e, failed, args, handed, fails⟩
  · have reach : HandsOver request w (flagged request) program opened before staged reached :=
      ⟨known, opens, handed⟩
    rcases native_answers (call_answers program (callOf request program opened.2 staged) reached) with
      ⟨why, failed, fails⟩ | ⟨⟨⟩, answered, answers⟩
    · exact .inl ⟨why, .calling reach fails⟩
    · rcases Action.mapM_ok_or_stops (fun item => fetch opened.2 item.1.2 item.2)
          ((flagged request).zip staged) answered with ⟨out, left, fetches⟩ |
          ⟨earlier, ⟨⟨arg, readOnly⟩, s⟩, later, out, copied, e, failed, args, copies, fails⟩
      · refine .inr (.inr ⟨opened, before, staged, reached, answered, out, left, reach, answers,
          fetches, ?_⟩)
        have hfetches : (fetchAll opened.2 ((flagged request).zip staged)).perform answered =
            (.ok out, left) := fetches
        rw [transfer_of_handed reach]
        unfold callThrough
        rw [Action.perform_bind_goes (launching_ok_iff.mpr answers),
          Action.perform_bind_goes hfetches]
        rfl
      · obtain ⟨rfl, number, host, why, failed, rfl, hcopy⟩ := fetch_error fails
        exact .inl ⟨why, .reading reach answers args copies hcopy⟩
  · have reach : HandsOver request w earlier program opened before staged reached :=
      ⟨known, opens, handed⟩
    rcases stage_error fails with hunfit | ⟨host, why, failed, needed, hcreate⟩
    · exact .inr (.inl ⟨earlier, arg, readOnly, later, opened, before, staged, reached, e, failed,
        reach, args, hunfit, transfer_of_stage_error reach args fails⟩)
    · exact .inl ⟨why, .creating reach args needed hcreate⟩

/-- Nothing but a native operation lets a launch of a known program fail whose arguments can be
converted. -/
theorem NativeFault.of_fails {program : Native.Program} {e : Failure} {failed : World Machine}
    (known : w.state.openCL.programs.lookup (request.device.index, request.name) = some program)
    (fits : ∀ item ∈ flagged request, ∃ p, passage item.1 item.2 = .ok p)
    (h : (transfer request).perform w = (.error e, failed)) :
    ∃ why, e = .kernel (.execution why) ∧ NativeFault request w why := by
  rcases transfer_cases known with ⟨why, hfault⟩ |
    ⟨earlier, arg, readOnly, later, _, _, _, _, _, _, _, args, hunfit, _⟩ |
    ⟨_, _, _, _, _, _, _, _, _, _, hgoes⟩
  · obtain ⟨_, hfails⟩ := hfault.transfer_fails
    cases h.symm.trans hfails
    exact ⟨why, rfl, hfault⟩
  · obtain ⟨p, hp⟩ := fits (arg, readOnly) (args ▸ List.mem_append_right _ List.mem_cons_self)
    cases hunfit.symm.trans hp
  · cases h.symm.trans hgoes

end Launches

end KernelLaunch.Backend.OpenCL
