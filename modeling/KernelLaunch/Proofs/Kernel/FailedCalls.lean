import KernelLaunch.Backend.Loopback
import KernelLaunch.Proofs.Backend.LastWriter
import KernelLaunch.Proofs.Kernel.Stages

/-!
Failing calls, stage by stage: the argument count, the build, the block check and
marshalling, the backend, and the decoding of results. Each case comes with the requests
made so far, what the failure leaves of the kernel, and what the next call has to do again.
-/

namespace KernelLaunch.Kernel

open Host Signature Backend

variable {σ : Type}

theorem encodeAll_silent (complex : List Bool) (args : List Value) :
    Silent (encodeAll complex args) := by
  refine .mapM ?_ _
  rintro ⟨isComplex, arg⟩
  exact .ite (Value.split_silent arg).map (.ok _)

theorem castTo_silent (p : Parameter) (passed : Passed) : Silent (castTo p passed) := by
  refine .map (.bind ?_ fun storage => passed.value.collectAs_silent storage)
  unfold ElementType.storage
  split
  · exact .ok _
  · exact .error rfl

theorem readOnlyAll_silent (parameters : List Parameter) (args : List Value) :
    Silent (readOnlyAll parameters args) := by
  refine .mapM ?_ _
  rintro ⟨p, arg⟩
  exact .ite (.ok _) (.ite arg.isSingle_silent.map (.ok _))

theorem castAll_error {name : String} {parameters : List Parameter} {inPlace : Bool}
    {passed : List Passed} {e : Failure} (h : castAll name parameters inPlace passed = .error e) :
    e.message? = none ∨ ∃ aliases, e = .kernel (.unresolvedTypes name aliases) := by
  unfold castAll at h
  split at h
  · refine .inl (Silent.mapM ?_ _ e h)
    rintro ⟨p, a⟩
    exact .ite (castTo_silent p a) (.ok _)
  · split at h
    · refine .inl (Silent.mapM ?_ _ e h)
      rintro ⟨p, a⟩
      exact castTo_silent p a
    · cases h
      exact .inr ⟨_, rfl⟩

/-- Arguments cannot be prepared: for a reason without a text, or because the block is too
large, or because nobody has defined some type. -/
theorem prepare_error {k : Kernel} {device : Device} {args : List Value} {inPlace : Bool}
    {e : Failure} (h : k.prepare device args inPlace = .error e) :
    e.message? = none ∨ (∃ text, e = .kernel (.blockSize text)) ∨
      ∃ aliases, e = .kernel (.unresolvedTypes k.name aliases) := by
  rcases Steps.bind_error_iff.mp h with hblock | ⟨_, _, h⟩
  · unfold checkBlock at hblock
    dsimp only at hblock
    split at hblock
    · cases hblock
      exact .inr (.inl ⟨_, rfl⟩)
    · split at hblock
      · cases hblock
        exact .inr (.inl ⟨_, rfl⟩)
      · cases hblock
  rcases Steps.bind_error_iff.mp h with hcomplex | ⟨complex, _, h⟩
  · exact .inl (Silent.mapM Value.isComplex_silent args e hcomplex)
  rcases Steps.bind_error_iff.mp h with hpassed | ⟨passed, _, h⟩
  · rcases Steps.bind_error_iff.mp hpassed with hencoded | ⟨encoded, _, hcast⟩
    · exact .inl (encodeAll_silent complex args e hencoded)
    · exact (castAll_error hcast).imp_right .inr
  rcases Steps.bind_error_iff.mp h with hflags | ⟨_, _, h⟩
  · exact .inl (readOnlyAll_silent _ _ e hflags)
  · cases h

theorem outputs_silent (parameters : List Parameter) (complex : List Bool) (passed : List Passed)
    (results : List Result) : Silent (outputs parameters complex passed results) := by
  fun_induction outputs with
  | case1 _ _ _ _ _ _ _ _ _ ih => exact ih
  | case2 _ _ isComplex _ _ _ result _ _ ih =>
      refine .bind ?_ fun _ => .bind ih fun _ => .ok _
      unfold decode
      split
      · exact result.value.join_silent.bind fun _ => .ok _
      · exact .ok _
  | case3 => exact .ok _

/-- The ways a kernel gets ready for a launch: its build record is current, or a build
succeeds. -/
inductive Readied (k : Kernel) (device : Device) : Kernel → List Exchange → Prop where
  | current (current : k.builtFor? = .ok (some device)) : Readied k device k []
  | compiled {options all : String} {names : List String} {events : List Note}
      (plan : Planned k .absent device options all) (present : k.name ∈ names) :
      Readied k device (k.recorded device options)
        [.compile ⟨device, k.source, all⟩ (.ok names) events]

/-- The ways a kernel fails to get ready, with the exchanges before the failure. -/
inductive Unready (k : Kernel) : Failure → List Exchange → Prop where
  | noDevice (text : String) (absent : k.device = none) :
      Unready k (.kernel (.noDevice text)) []
  | unclear {e : Failure} (unclear : k.optionString = .error e) : Unready k e []
  | refused {e : Failure} {request : CompileRequest} {events : List Note} :
      Unready k e [.compile request (.error e) events]
  | missing {names : List String} {request : CompileRequest} {events : List Note}
      (absent : k.name ∉ names) :
      Unready k (.kernel (.missingFromBuild k.name names)) [.compile request (.ok names) events]

theorem optionString_of_builtFor?_error {k : Kernel} {e : Failure}
    (h : k.builtFor? = .error e) : k.optionString = .error e := by
  unfold builtFor? at h
  split at h
  · split at h
    · cases hoptions : k.optionString with
      | error e' =>
          rw [hoptions] at h
          cases h
          rfl
      | ok options =>
          rw [hoptions] at h
          cases h
    · cases h
  · cases h

/-- A build that cannot be asked for has no device or no option string. -/
theorem build_unplanned {b : Backend σ} {k : Kernel} {w after : World σ} {e : Failure}
    (unplanned : ∀ device options all, ¬ Planned k .absent device options all)
    (h : (k.build b .absent).perform w = (.error e, after)) :
    (∃ text, k.device = none ∧ e = .kernel (.noDevice text)) ∨ k.optionString = .error e := by
  unfold build at h
  split at h
  · next hdevice =>
    cases h
    exact .inl ⟨_, hdevice, rfl⟩
  · next device hdevice =>
    simp only [Action.perform_bind, Action.perform_lift] at h
    cases hoptions : k.optionString with
    | error e' =>
        rw [hoptions] at h
        cases h
        exact .inr rfl
    | ok options =>
        exact absurd ⟨hdevice, hoptions, buildOptions_absent options⟩ (unplanned _ _ _)

/-- What passes until a kernel is ready, or until it turns out that it cannot be. -/
theorem ready_outcome (b : Backend σ) (k : Kernel) (w : World (Recorded σ)) :
    ∃ exchanges,
      ((k.ready b.recording).perform w).2.state.record = w.state.record ++ exchanges ∧
      match ((k.ready b.recording).perform w).1 with
      | .ok (built, device) => Readied k device built exchanges
      | .error e => Unready k e exchanges := by
  cases hbuilt : k.builtFor? with
  | error e =>
      rw [ready_of_error b.recording w hbuilt]
      exact ⟨[], by simp, .unclear (optionString_of_builtFor?_error hbuilt)⟩
  | ok for? =>
      cases for? with
      | some device =>
          rw [ready_of_built b.recording w hbuilt]
          exact ⟨[], by simp, .current hbuilt⟩
      | none =>
          rw [ready_of_unbuilt b.recording w hbuilt]
          generalize hnoted : { w with notes := w.notes ++ [Note.info k.unbuiltReport] } = noted
          have hstate : noted.state = w.state := by rw [← hnoted]
          have hrun := build_run b.recording k .absent noted
          generalize hbuild : (k.build b.recording .absent).perform noted = result at hrun
          rw [← hstate]
          cases hrun with
          | refused unplanned =>
              refine ⟨[], by simp, ?_⟩
              rcases build_unplanned unplanned hbuild with ⟨text, hdevice, rfl⟩ | hoptions
              · exact .noDevice text hdevice
              · exact .unclear hoptions
          | @failed device options all e after plan asked =>
              obtain ⟨events, hrecord⟩ := askCompile_record b ⟨device, k.source, all⟩ noted
              rw [asked] at hrecord
              exact ⟨_, hrecord, .refused⟩
          | @missing device options all names after plan asked absent =>
              obtain ⟨events, hrecord⟩ := askCompile_record b ⟨device, k.source, all⟩ noted
              rw [asked] at hrecord
              exact ⟨_, hrecord, .missing absent⟩
          | @built device options all names after plan asked present =>
              obtain ⟨events, hrecord⟩ := askCompile_record b ⟨device, k.source, all⟩ noted
              rw [asked] at hrecord
              exact ⟨_, hrecord, .compiled plan present⟩

/-- A backend can answer a launch with a failure. -/
def RunFails (b : Backend σ) (request : RunRequest) (e : Failure) : Prop :=
  ∃ v : World σ, ((b.run request).perform v).1 = .error e

/-- The failure points of a call, with the kernel after it and the exchanges made. -/
inductive Failed (b : Backend σ) (k : Kernel) (args : List Value) (inPlace : Bool)
    (e : Failure) : Kernel → List Exchange → Prop where
  | miscounted (count : args.length ≠ k.parameters.length)
      (cause : e = .kernel (.argumentCount k.parameters.length k.declaration)) :
      Failed b k args inPlace e k []
  | unready {exchanges : List Exchange} (count : args.length = k.parameters.length)
      (unready : Unready k e exchanges) : Failed b k args inPlace e k exchanges
  | unprepared {device : Device} {built : Kernel} {before : List Exchange}
      (count : args.length = k.parameters.length) (readied : Readied k device built before)
      (unprepared : k.prepare device args inPlace = .error e) :
      Failed b k args inPlace e built before
  | launched {device : Device} {built : Kernel} {before : List Exchange} {p : Prepared}
      {events : List Note} (count : args.length = k.parameters.length)
      (readied : Readied k device built before)
      (prepared : k.prepare device args inPlace = .ok p)
      (cause : RunFails b (k.runRequest device p.passed p.flags) e ∨
        ∃ results, outputs k.parameters p.complex p.passed results = .error e) :
      Failed b k args inPlace e built
        (before ++ [.run (k.runRequest device p.passed p.flags) events])

/-- A launch fails because the backend does, or because some result is not what it should. -/
theorem finish_error {b : Backend σ} {k : Kernel} {device : Device} {args : List Value}
    {p : Prepared} {w : World (Recorded σ)} {e : Failure}
    (h : ((k.finish b.recording device args p).perform w).1 = .error e) :
    RunFails b (k.runRequest device p.passed p.flags) e ∨
      ∃ results, outputs k.parameters p.complex p.passed results = .error e := by
  have hanswer : ((b.recording.askRun (k.runRequest device p.passed p.flags)).perform w).1 =
      ((b.run (k.runRequest device p.passed p.flags)).perform
        ⟨w.state.state, w.notes ++ [.run (k.runRequest device p.passed p.flags)]⟩).1 := rfl
  cases hrun : (b.recording.askRun (k.runRequest device p.passed p.flags)).perform w with
  | mk answer after =>
      rw [hrun] at hanswer
      cases answer with
      | error e' =>
          rw [finish_of_error hrun] at h
          cases h
          exact .inl ⟨_, hanswer.symm⟩
      | ok reply =>
          rw [finish_of_reply hrun] at h
          cases houtputs : outputs k.parameters p.complex p.passed reply.results with
          | error e' =>
              rw [houtputs] at h
              cases h
              exact .inr ⟨_, houtputs⟩
          | ok results =>
              rw [houtputs] at h
              cases h

theorem call_failed (b : Backend σ) (k : Kernel) (args : List Value) (inPlace : Bool)
    (w : World (Recorded σ)) {e : Failure}
    (h : (k.call b.recording args inPlace w).outcome = .error e) :
    ∃ exchanges,
      (k.call b.recording args inPlace w).world.state.record = w.state.record ++ exchanges ∧
      Failed b k args inPlace e (k.call b.recording args inPlace w).kernel exchanges := by
  by_cases hcount : args.length = k.parameters.length
  · obtain ⟨before, hrecord, houtcome⟩ := ready_outcome b k w
    cases hready : (k.ready b.recording).perform w with
    | mk answer after =>
        rw [hready] at hrecord houtcome
        cases answer with
        | error e' =>
            rw [call_of_unready hcount hready] at h ⊢
            cases h
            exact ⟨before, hrecord, .unready hcount houtcome⟩
        | ok pair =>
            obtain ⟨built, device⟩ := pair
            obtain ⟨asked, hstate, _, hcall⟩ := call_perform hcount hready inPlace
            rw [hcall] at h ⊢
            cases hprepare : k.prepare device args inPlace with
            | error e' =>
                rw [hprepare] at h
                cases h
                refine ⟨before, ?_, .unprepared hcount houtcome hprepare⟩
                dsimp only
                rw [hstate, hrecord]
            | ok p =>
                rw [hprepare] at h
                obtain ⟨events, hrun⟩ := finish_record b k device args p asked
                refine ⟨before ++ [.run (k.runRequest device p.passed p.flags) events], ?_,
                  .launched hcount houtcome hprepare (finish_error h)⟩
                dsimp only
                rw [hrun, hstate, hrecord, List.append_assoc]
  · rw [call_of_miscounted hcount] at h ⊢
    cases h
    exact ⟨[], by simp, .miscounted hcount rfl⟩

namespace Readied

variable {k built : Kernel} {device : Device} {before : List Exchange}

theorem builtFor (h : Readied k device built before) :
    k.device = some device ∧ built.builtFor? = .ok (some device) := by
  cases h with
  | current current => exact ⟨(builtFor?_eq_some_iff.mp current).1, current⟩
  | compiled plan => exact ⟨plan.hasDevice, recorded_builtFor? plan⟩

theorem settings (h : Readied k device built before) : built = { k with built := built.built } := by
  cases h <;> rfl

end Readied

/-- Some compilation has found a kernel of a name. -/
def Finds (exchanges : List Exchange) (name : String) : Prop :=
  ∃ request names events, .compile request (.ok names) events ∈ exchanges ∧ name ∈ names

theorem Finds.append {exchanges : List Exchange} {name : String} (h : Finds exchanges name)
    (more : List Exchange) : Finds (exchanges ++ more) name := by
  obtain ⟨request, names, events, hmem, hname⟩ := h
  exact ⟨request, names, events, List.mem_append_left more hmem, hname⟩

theorem Readied.finds {k built : Kernel} {device : Device} {before : List Exchange}
    (h : Readied k device built before) (hchanged : built.built ≠ k.built) :
    Finds before k.name := by
  cases h with
  | current => exact absurd rfl hchanged
  | compiled _ present => exact ⟨_, _, _, List.mem_singleton_self _, present⟩

theorem Unready.not_finds {k : Kernel} {e : Failure} {exchanges : List Exchange}
    (h : Unready k e exchanges) : ¬ Finds exchanges k.name := by
  rintro ⟨request, names, events, hmem, hname⟩
  cases h with
  | noDevice => exact List.not_mem_nil hmem
  | unclear => exact List.not_mem_nil hmem
  | refused => cases List.mem_singleton.mp hmem
  | missing absent =>
      cases List.mem_singleton.mp hmem
      exact absent hname

/-- A kernel that is built is not compiled by calls, whatever its sizes and parameters are. -/
theorem compilations_of_built (b : Backend σ) {k : Kernel} {device : Device}
    (h : k.builtFor? = .ok (some device)) (args : List Value) (inPlace : Bool)
    (w : World (Recorded σ)) : (k.call b.recording args inPlace w).compilations w = [] := by
  by_cases hcount : args.length = k.parameters.length
  · rw [call_compilations hcount (ready_of_built b.recording w h), List.drop_length]
    rfl
  · rw [call_of_miscounted hcount, Called.compilations, Called.exchanges, List.drop_length]
    rfl

/-- The requests to launch among exchanges. -/
def runsOf (exchanges : List Exchange) : List RunRequest :=
  exchanges.filterMap Exchange.runRequest?

/-- At most one compilation, and no launch. -/
structure Compiles (exchanges : List Exchange) : Prop where
  once : exchanges.length ≤ 1
  noRun : ∀ x ∈ exchanges, x.runRequest? = none

namespace Compiles

variable {exchanges : List Exchange}

theorem nil : Compiles [] := ⟨Nat.zero_le 1, List.forall_mem_nil _⟩

theorem single (request : CompileRequest) (answer : Except Failure (List String))
    (events : List Note) : Compiles [.compile request answer events] :=
  ⟨Nat.le_refl 1, List.forall_mem_singleton.mpr rfl⟩

theorem runsOf_eq_nil (h : Compiles exchanges) : runsOf exchanges = [] :=
  List.filterMap_eq_nil_iff.mpr h.noRun

end Compiles

theorem Readied.compiles {k built : Kernel} {device : Device} {before : List Exchange}
    (h : Readied k device built before) : Compiles before := by
  cases h with
  | current => exact .nil
  | compiled => exact .single _ _ _

theorem Unready.compiles {k : Kernel} {e : Failure} {exchanges : List Exchange}
    (h : Unready k e exchanges) : Compiles exchanges := by
  cases h with
  | noDevice => exact .nil
  | unclear => exact .nil
  | refused => exact .single _ _ _
  | missing => exact .single _ _ _

namespace Failed

variable {b : Backend σ} {k k' : Kernel} {args : List Value} {inPlace : Bool} {e : Failure}
  {exchanges : List Exchange}

theorem settings (h : Failed b k args inPlace e k' exchanges) :
    k' = { k with built := k'.built } := by
  cases h with
  | miscounted => rfl
  | unready => rfl
  | unprepared _ readied => exact readied.settings
  | launched _ readied => exact readied.settings

theorem order (h : Failed b k args inPlace e k' exchanges) :
    ∃ compilation launch, exchanges = compilation ++ launch ∧ Compiles compilation ∧
      launch.length ≤ 1 ∧ ∀ x ∈ launch, x.compileRequest? = none := by
  have halone {compilation : List Exchange} (hcompiles : Compiles compilation) :
      ∃ compilation' launch, compilation = compilation' ++ launch ∧ Compiles compilation' ∧
        launch.length ≤ 1 ∧ ∀ x ∈ launch, x.compileRequest? = none :=
    ⟨compilation, [], (List.append_nil _).symm, hcompiles, Nat.zero_le 1, List.forall_mem_nil _⟩
  cases h with
  | miscounted => exact halone .nil
  | unready _ unready => exact halone unready.compiles
  | unprepared _ readied => exact halone readied.compiles
  | launched _ readied =>
      exact ⟨_, _, rfl, readied.compiles, Nat.le_refl 1, List.forall_mem_singleton.mpr rfl⟩

theorem runsOf_launched {before : List Exchange} {request : RunRequest} {events : List Note}
    (h : Compiles before) : runsOf (before ++ [.run request events]) = [request] := by
  have hbefore := h.runsOf_eq_nil
  unfold runsOf at hbefore ⊢
  rw [List.filterMap_append, hbefore]
  rfl

/-- A failure of a kernel after the launch is one of the launch itself: what is wrong with
results has no text. -/
theorem unlaunched {cause : KernelError}
    (h : Failed b k args inPlace (.kernel cause) k' exchanges) :
    runsOf exchanges = [] ∨ ∃ request ∈ runsOf exchanges, RunFails b request (.kernel cause) := by
  cases h with
  | miscounted => exact .inl rfl
  | unready _ unready => exact .inl unready.compiles.runsOf_eq_nil
  | unprepared _ readied => exact .inl readied.compiles.runsOf_eq_nil
  | launched _ readied _ why =>
      rcases why with hfails | ⟨results, houtputs⟩
      · rw [runsOf_launched readied.compiles]
        exact .inr ⟨_, List.mem_singleton_self _, hfails⟩
      · cases outputs_silent _ _ _ _ _ houtputs

/-- A wrong number of arguments is found before anything is asked of the backend, if it is
not the backend that complains of one. -/
theorem counted {expected : Int} {declaration : String}
    (h : Failed b k args inPlace (.kernel (.argumentCount expected declaration)) k' exchanges) :
    exchanges = [] ∨
      (∃ request events, .compile request
        (.error (.kernel (.argumentCount expected declaration))) events ∈ exchanges) ∨
      ∃ request ∈ runsOf exchanges,
        RunFails b request (.kernel (.argumentCount expected declaration)) := by
  have hlaunches := h.unlaunched
  generalize hfailure : Failure.kernel (.argumentCount expected declaration) = failure
    at h hlaunches
  cases h with
  | miscounted => exact .inl rfl
  | unready _ unready =>
      cases unready with
      | noDevice => cases hfailure
      | unclear => exact .inl rfl
      | refused => exact .inr (.inl ⟨_, _, List.mem_singleton_self _⟩)
      | missing => cases hfailure
  | unprepared _ readied unprepared =>
      subst hfailure
      rcases prepare_error unprepared with hsilent | ⟨_, hblock⟩ | ⟨_, htypes⟩
      · cases hsilent
      · cases hblock
      · cases htypes
  | launched _ readied =>
      refine .inr (.inr (hlaunches.resolve_left ?_))
      rw [runsOf_launched readied.compiles]
      exact List.cons_ne_nil _ _

theorem unprepared_runsOf (h : Failed b k args inPlace e k' exchanges) {device : Device}
    {failure : Failure} (hdevice : k.device = some device)
    (hprepare : k.prepare device args inPlace = .error failure) : runsOf exchanges = [] := by
  cases h with
  | miscounted => rfl
  | unready _ unready => exact unready.compiles.runsOf_eq_nil
  | unprepared _ readied => exact readied.compiles.runsOf_eq_nil
  | launched _ readied prepared =>
      cases hdevice.symm.trans readied.builtFor.1
      cases hprepare.symm.trans prepared

theorem rebuilt (h : Failed b k args inPlace e k' exchanges) (hchanged : k'.built ≠ k.built) :
    Finds exchanges k.name := by
  cases h with
  | miscounted => exact absurd rfl hchanged
  | unready => exact absurd rfl hchanged
  | unprepared _ readied => exact readied.finds hchanged
  | launched _ readied => exact (readied.finds hchanged).append _

/-- A failure leaves a kernel built that was built before or has been compiled. -/
theorem stays_built (h : Failed b k args inPlace e k' exchanges)
    (hbuilt : (∃ device, k.builtFor? = .ok (some device)) ∨ Finds exchanges k.name) :
    ∃ device, k'.builtFor? = .ok (some device) := by
  cases h with
  | miscounted => exact hbuilt.resolve_right fun ⟨_, _, _, hmem, _⟩ => List.not_mem_nil hmem
  | unready _ unready => exact hbuilt.resolve_right unready.not_finds
  | unprepared _ readied => exact ⟨_, readied.builtFor.2⟩
  | launched _ readied => exact ⟨_, readied.builtFor.2⟩

end Failed

/-- After a failure of a kernel nothing has been launched, if it is not the launch that failed. -/
theorem launches_failed {b : Backend σ} {k : Kernel} {args : List Value} {inPlace : Bool}
    {w : World (Recorded σ)} {cause : KernelError}
    (h : (k.call b.recording args inPlace w).outcome = .error (.kernel cause)) :
    (k.call b.recording args inPlace w).launches w = [] ∨
      ∃ request ∈ (k.call b.recording args inPlace w).launches w,
        RunFails b request (.kernel cause) := by
  obtain ⟨exchanges, hrecord, hfailed⟩ := call_failed b k args inPlace w h
  have hlaunches : (k.call b.recording args inPlace w).launches w = runsOf exchanges := by
    rw [Called.launches, Called.exchanges, hrecord, List.drop_left, runsOf]
  rw [hlaunches]
  exact hfailed.unlaunched

/-- The guarantees of a failed call. -/
structure Intact (b : Backend σ) (k : Kernel) (args : List Value) (inPlace : Bool)
    (w : World (Recorded σ)) (e : Failure) : Prop where
  settings : (k.call b.recording args inPlace w).kernel =
    { k with built := (k.call b.recording args inPlace w).kernel.built }
  order : ∃ compilation launch,
    (k.call b.recording args inPlace w).exchanges w = compilation ++ launch ∧
      Compiles compilation ∧ launch.length ≤ 1 ∧ ∀ x ∈ launch, x.compileRequest? = none
  miscounted : args.length ≠ k.parameters.length →
    e = .kernel (.argumentCount k.parameters.length k.declaration) ∧
      (k.call b.recording args inPlace w).kernel = k ∧
      (k.call b.recording args inPlace w).world = w
  counted : ∀ expected declaration, e = .kernel (.argumentCount expected declaration) →
    (k.call b.recording args inPlace w).exchanges w = [] ∨
      (∃ request events, .compile request (.error e) events ∈
        (k.call b.recording args inPlace w).exchanges w) ∨
      ∃ request ∈ (k.call b.recording args inPlace w).launches w, RunFails b request e
  unlaunched : ∀ cause, e = .kernel cause →
    (k.call b.recording args inPlace w).launches w = [] ∨
      ∃ request ∈ (k.call b.recording args inPlace w).launches w, RunFails b request e
  unprepared : ∀ device failure, k.device = some device →
    k.prepare device args inPlace = .error failure →
      (k.call b.recording args inPlace w).launches w = []
  rebuilt : (k.call b.recording args inPlace w).kernel.built ≠ k.built →
    Finds ((k.call b.recording args inPlace w).exchanges w) k.name
  /-- A kernel that was built before, or has been compiled in the call, is not compiled again
  when it is called with other arguments, sizes and types. -/
  repeated : ((∃ device, k.builtFor? = .ok (some device)) ∨
      Finds ((k.call b.recording args inPlace w).exchanges w) k.name) →
    (∃ device, (k.call b.recording args inPlace w).kernel.builtFor? = .ok (some device)) ∧
      ∀ geometry parameters args' inPlace' w',
        ({ (k.call b.recording args inPlace w).kernel with geometry, parameters }.call
          b.recording args' inPlace' w').compilations w' = []

theorem call_intact (b : Backend σ) (k : Kernel) (args : List Value) (inPlace : Bool)
    (w : World (Recorded σ)) {e : Failure}
    (h : (k.call b.recording args inPlace w).outcome = .error e) :
    Intact b k args inPlace w e := by
  obtain ⟨exchanges, hrecord, hfailed⟩ := call_failed b k args inPlace w h
  have hexchanges : (k.call b.recording args inPlace w).exchanges w = exchanges := by
    rw [Called.exchanges, hrecord, List.drop_left]
  have hlaunches : (k.call b.recording args inPlace w).launches w = runsOf exchanges := by
    rw [Called.launches, hexchanges, runsOf]
  constructor
  case settings => exact hfailed.settings
  case order =>
    rw [hexchanges]
    exact hfailed.order
  case miscounted =>
    intro hcount
    rw [call_of_miscounted hcount] at h ⊢
    cases h
    exact ⟨rfl, rfl, rfl⟩
  case counted =>
    rintro expected declaration rfl
    rw [hexchanges, hlaunches]
    exact hfailed.counted
  case unlaunched =>
    rintro cause rfl
    exact launches_failed h
  case unprepared =>
    intro device failure hdevice hprepare
    rw [hlaunches]
    exact hfailed.unprepared_runsOf hdevice hprepare
  case rebuilt =>
    rw [hexchanges]
    exact hfailed.rebuilt
  case repeated =>
    rw [hexchanges]
    intro hbuilt
    obtain ⟨device, hdevice⟩ := hfailed.stays_built hbuilt
    refine ⟨⟨device, hdevice⟩, ?_⟩
    intro geometry parameters args' inPlace' w'
    have hchanged : ({ (k.call b.recording args inPlace w).kernel with
        geometry, parameters } : Kernel).builtFor? = .ok (some device) := hdevice
    exact compilations_of_built b hchanged args' inPlace' w'

/-- A kernel whose block is too large for its device: the call compiles it, and then stops. -/
def sampleTooLarge : Kernel :=
  { Life.sample.kernel with geometry := ⟨⟨257, 1, 1⟩, .same 1, .same 0⟩ }

theorem sample_intact :
    (sampleTooLarge.call loopback.recording [] false Life.sample.world).kernel.built ≠ none ∧
    ∃ e, (sampleTooLarge.call loopback.recording [] false Life.sample.world).outcome = .error e ∧
      Intact loopback sampleTooLarge [] false Life.sample.world e := by
  refine ⟨by decide +kernel, ?_⟩
  cases houtcome : (sampleTooLarge.call loopback.recording [] false Life.sample.world).outcome with
  | error e => exact ⟨e, rfl, call_intact loopback sampleTooLarge [] false _ houtcome⟩
  | ok result =>
      have hfails : (sampleTooLarge.call loopback.recording [] false
        Life.sample.world).outcome.toOption.isNone = true := by decide +kernel
      rw [houtcome] at hfails
      cases hfails

theorem touchedAll_silent (effect : Tensor → Tensor) (args : List Value) (flags : List Bool) :
    Silent (Loopback.touchedAll effect args flags) := by
  induction args generalizing flags with
  | nil => exact .ok []
  | cons arg rest ih =>
      refine .bind ?_ fun _ => .bind (ih flags.tail) fun _ => .ok _
      cases arg with
      | array a => exact .ite (.ok _) (.ite (.error rfl) (.ok _))
      | _ => exact .ok _

/-- Without native objects, a launch fails as a launch, if for a reason that has a text. -/
theorem loopback_runFails {request : RunRequest} {cause : KernelError}
    (h : RunFails loopback request (.kernel cause)) : ∃ text, cause = .execution text := by
  obtain ⟨v, hv⟩ := h
  simp only [loopback, Action.perform_bind, Action.perform_state] at hv
  cases hsetup : v.state.setup.runError with
  | some why =>
      rw [hsetup] at hv
      cases hv
      exact ⟨why, rfl⟩
  | none =>
      simp only [hsetup] at hv
      split at hv
      · simp only [Action.perform_bind, Action.perform_lift] at hv
        cases htouched : Loopback.touchedAll v.state.setup.effect request.args request.readOnly with
        | error e =>
            rw [htouched] at hv
            cases hv
            cases touchedAll_silent _ _ _ _ htouched
        | ok args =>
            rw [htouched] at hv
            cases hv
      · cases hv

/-- With native objects too. -/
theorem openCL_runFails {request : RunRequest} {cause : KernelError}
    (h : RunFails openCL request (.kernel cause)) : ∃ text, cause = .execution text := by
  obtain ⟨v, hv⟩ := h
  obtain ⟨outcome, notes, after, hperform, hrunning⟩ := OpenCL.run_perform request v
  change ((OpenCL.run request).perform v).1 = _ at hv
  rw [hperform] at hv
  subst hv
  cases hrunning with
  | unknown => exact ⟨_, rfl⟩
  | refused _ _ _ _ _ refused =>
      obtain ⟨text, hcause, _⟩ := refused.reason
      exact ⟨text, hcause⟩
  | called _ _ _ _ _ _ broken =>
      obtain ⟨text, hcause, _⟩ := (broken _ rfl).reason
      exact ⟨text, hcause⟩

/-- On the backends here, every failure of a kernel but one of the launch comes before it. -/
theorem launches_of_failure {b : Backend Machine} (hb : b = loopback ∨ b = openCL) {k : Kernel}
    {args : List Value} {inPlace : Bool} {w : World (Recorded Machine)} {cause : KernelError}
    (h : (k.call b.recording args inPlace w).outcome = .error (.kernel cause))
    (hcause : ∀ text, cause ≠ .execution text) :
    (k.call b.recording args inPlace w).launches w = [] := by
  refine (launches_failed h).resolve_right ?_
  rintro ⟨request, _, hfails⟩
  have hexecution : ∃ text, cause = .execution text := by
    rcases hb with rfl | rfl
    · exact loopback_runFails hfails
    · exact openCL_runFails hfails
  obtain ⟨text, htext⟩ := hexecution
  exact hcause text htext

end KernelLaunch.Kernel
