import KernelLaunch.Proofs.Device.FailedSelection
import KernelLaunch.Proofs.Kernel.Arguments
import KernelLaunch.Proofs.Kernel.Commons
import KernelLaunch.Proofs.Kernel.FailedCalls
import KernelLaunch.Proofs.Signature.Substitution

/-!
`defineTypes` on kernels, at once or step by step. Each definition is a simultaneous
substitution into the element types of the parameters and unresolves none, so a kernel whose
types are all resolved stays callable. A definition that fails leaves everything as it was.
-/

namespace KernelLaunch

open Host Device Backend Kernel Signature

variable {σ : Type}

/-- A failure that is about something else than unresolved types. -/
def Failure.SparesTypes (e : Failure) : Prop :=
  ∀ name aliases, e ≠ .kernel (.unresolvedTypes name aliases)

theorem Host.Silent.sparesTypes {α : Type} {r : Except Failure α} (h : Silent r) :
    ∀ e, r = .error e → e.SparesTypes := by
  rintro e he name aliases rfl
  cases h _ he

/-- A backend that leaves it to kernels to complain of unresolved types. -/
structure Backend.SparesTypes (b : Backend σ) : Prop where
  compile : ∀ request, Action.Fails Failure.SparesTypes (b.compile request)
  run : ∀ request, Action.Fails Failure.SparesTypes (b.run request)

namespace Backend

theorem runs_sparing {b : Backend σ}
    (h : ∀ request cause, RunFails b request (.kernel cause) → ∃ text, cause = .execution text)
    (request : RunRequest) : Action.Fails Failure.SparesTypes (b.run request) := by
  rintro w _ he name aliases rfl
  obtain ⟨_, htext⟩ := h request _ ⟨w, he⟩
  cases htext

theorem loopback_sparesTypes : loopback.SparesTypes where
  run := runs_sparing fun _ _ => loopback_runFails
  compile request := by
    refine .bind .state fun m => ?_
    dsimp only
    cases m.setup.buildError with
    | some why => exact .throw nofun
    | none =>
        refine .bind (.bind .state fun m => ?_) fun _ => .pure _
        cases m.files.read? request.source with
        | some text => exact .pure _
        | none => exact .throw nofun

theorem openCL_sparesTypes : openCL.SparesTypes where
  run := runs_sparing fun _ _ => openCL_runFails
  compile request := by
    intro w e he
    obtain ⟨outcome, notes, after, hperform, hcompiling⟩ := OpenCL.compile_perform request w
    change ((OpenCL.compile request).perform w).1 = _ at he
    rw [hperform] at he
    subst he
    cases hcompiling with
    | unread => exact nofun
    | broken => exact nofun

end Backend

namespace Kernel

theorem textsOf_silent (values : List Value) : Silent (textsOf values) := by
  unfold textsOf
  split
  · exact .ok _
  · exact .error rfl

theorem optionString_silent (k : Kernel) : Silent k.optionString :=
  .bind (textsOf_silent _) fun _ => .bind (textsOf_silent _) fun _ =>
    .bind (textsOf_silent _) fun _ => .ok _

theorem builtFor?_silent (k : Kernel) : Silent k.builtFor? := by
  unfold builtFor?
  split
  · exact .ite (.bind k.optionString_silent fun _ => .ok _) (.ok _)
  · exact .ok _

theorem checkBlock_sparing (block : Geometry.Triple Int) (device : Device) :
    ∀ e, checkBlock block device = .error e → e.SparesTypes := by
  intro e he
  unfold checkBlock at he
  dsimp only at he
  split at he
  · cases he
    exact nofun
  · split at he
    · cases he
      exact nofun
    · cases he

section Calls

variable {b : Backend σ}

theorem build_sparing (hb : b.SparesTypes) (k : Kernel) :
    Action.Fails Failure.SparesTypes (k.build b .absent) := by
  unfold build
  split
  · exact .throw nofun
  · refine .bind (.lift k.optionString_silent.sparesTypes) fun options => ?_
    rw [buildOptions_absent]
    refine .bind (.lift nofun) fun all => .bind (.bind (.note _) fun _ => hb.compile _) ?_
    intro names
    split
    · exact .bind (.note _) fun _ => .pure _
    · exact .throw nofun

theorem ready_sparing (hb : b.SparesTypes) (k : Kernel) :
    Action.Fails Failure.SparesTypes (k.ready b) := by
  refine .bind (.lift k.builtFor?_silent.sparesTypes) fun for? => ?_
  split
  · exact .pure _
  · exact .bind (.note _) fun _ => build_sparing hb k

theorem castAll_silent {ps : List Parameter} (hresolved : ∀ p ∈ ps, p.isResolved = true)
    (name : String) (inPlace : Bool) (encoded : List Passed) :
    Silent (castAll name ps inPlace encoded) := by
  intro e he
  rcases castAll_error he with hsilent | ⟨aliases, rfl⟩
  · exact hsilent
  · cases inPlace with
    | true =>
        refine Silent.mapM ?_ _ _ he
        rintro ⟨p, a⟩
        exact .ite (castTo_silent p a) (.ok _)
    | false =>
        rw [castAll_of_resolved hresolved] at he
        refine Silent.mapM ?_ _ _ he
        rintro ⟨p, a⟩
        exact castTo_silent p a

theorem launch_sparing (hb : b.SparesTypes) {k : Kernel}
    (hresolved : ∀ p ∈ k.parameters, p.isResolved = true) (device : Device) (args : List Value)
    (inPlace : Bool) : Action.Fails Failure.SparesTypes (k.launch b device args inPlace) := by
  have hmarshal : Action.Fails (σ := σ) Failure.SparesTypes (k.marshal args inPlace) := by
    refine .bind (.lift (Silent.mapM Value.isComplex_silent args).sparesTypes) fun complex => ?_
    dsimp only
    have hrest : Action.Fails (σ := σ) Failure.SparesTypes (do
        let encoded ← encodeAll complex args
        let passed ← castAll k.name k.parameters inPlace encoded
        return (complex, passed)) :=
      .bind (.lift (encodeAll_silent complex args).sparesTypes) fun encoded =>
        .bind (.lift (castAll_silent hresolved k.name inPlace encoded).sparesTypes) fun _ => .pure _
    split
    · exact .bind (.note _) fun _ => hrest
    · exact hrest
  refine .bind (.lift (checkBlock_sparing _ _)) fun _ => .bind hmarshal fun marshalled => ?_
  refine .bind (.lift (readOnlyAll_silent _ _).sparesTypes) fun flags => ?_
  refine .bind (.bind (.note _) fun _ => hb.run _) fun reply => ?_
  exact .bind (.lift (outputs_silent _ _ _ _).sparesTypes) fun _ => .pure _

/-- A call of a kernel whose types are all known does not complain of them. -/
theorem call_sparing (hb : b.SparesTypes) {k : Kernel}
    (hresolved : ∀ p ∈ k.parameters, p.isResolved = true) (args : List Value) (inPlace : Bool)
    (w : World σ) : ∀ e, (k.call b args inPlace w).outcome = .error e → e.SparesTypes := by
  intro e he
  by_cases hcount : args.length = k.parameters.length
  · cases hready : (k.ready b).perform w with
    | mk answer before =>
        cases answer with
        | error e' =>
            rw [call_of_unready hcount hready] at he
            cases he
            exact ready_sparing hb k w _ (by rw [hready])
        | ok pair =>
            obtain ⟨built, device⟩ := pair
            rw [call_of_ready hcount hready] at he
            refine launch_sparing hb ?_ device args inPlace before e he
            rw [ready_settings hready]
            exact hresolved
  · rw [call_of_miscounted hcount] at he
    cases he
    exact nofun

end Calls

end Kernel

namespace Life

theorem set_parameters (platforms : Platforms) (k : Kernel) (s : Setting) (a : Assigned) :
    Answers (fun k' => k'.parameters = k.parameters) (k.set platforms s a) := by
  unfold Kernel.set
  split
  · exact .bind (.any _) fun _ _ => .pure rfl
  · exact .bind (.any _) fun _ _ => .pure rfl
  · next l _ => exact .bind (.any _) fun _ _ => .pure (by cases l <;> rfl)
  · exact .throw _

theorem withChanges_parameters (platforms : Platforms) (k : Kernel)
    (fields : List (String × Assigned)) :
    Answers (fun k' => k'.parameters = k.parameters) (k.withChanges platforms fields) := by
  refine .foldlM (fun k' (field, a) h => ?_) _ rfl
  dsimp only
  split
  · intro d k'' heq
    exact (set_parameters platforms k' _ _ d k'' heq).trans h
  · exact .throw _

theorem all_refl (ps : List Parameter) : List.Forall₂ Refines ps ps :=
  List.forall₂_same.mpr fun p _ => .refl p

theorem ask_refines (l : Life σ) {query : Directory.Query Kernel}
    (h : Answers (fun k' => k'.parameters = l.kernel.parameters) query) :
    List.Forall₂ Refines l.kernel.parameters (l.ask query).kernel.parameters := by
  have hanswer := h l.directory
  change List.Forall₂ Refines l.kernel.parameters
    ((query.run.run l.directory).1.toOption.getD l.kernel).parameters
  cases houtcome : (query.run.run l.directory).1 with
  | error e => exact all_refl _
  | ok k =>
      rw [show ((.ok k : Except Failure Kernel).toOption.getD l.kernel).parameters =
        l.kernel.parameters from hanswer k houtcome]
      exact all_refl _

/-- What an operation does to the parameters, definitions of types may do: it changes types,
and none that is known becomes unknown. -/
theorem step_refines (b : Backend σ) (l : Life σ) (op : Op) :
    List.Forall₂ Refines l.kernel.parameters (l.step b op).kernel.parameters := by
  cases op with
  | platforms ps => exact all_refl _
  | refresh => exact all_refl _
  | select index => exact all_refl _
  | set s a => exact l.ask_refines (set_parameters l.platforms l.kernel s a)
  | edit list options => cases list <;> exact all_refl _
  | define types names =>
      change List.Forall₂ Refines l.kernel.parameters
        ((l.kernel.defineTypes types names).toOption.getD l.kernel).parameters
      unfold defineTypes
      cases hoverride : override l.kernel.parameters types names with
      | error e => exact all_refl _
      | ok qs => exact override_refines hoverride
  | copy fields => exact l.ask_refines (withChanges_parameters l.platforms l.kernel fields)
  | build extra =>
      change List.Forall₂ Refines l.kernel.parameters
        (((l.kernel.build b.recording extra).perform l.world).1.toOption.elim l.kernel
          Prod.fst).parameters
      rcases hbuild : (l.kernel.build b.recording extra).perform l.world with
        ⟨e | ⟨built, device⟩, after⟩
      · exact all_refl _
      · have hsettings := build_settings hbuild
        change List.Forall₂ Refines l.kernel.parameters built.parameters
        rw [hsettings]
        exact all_refl _
  | call args inPlace =>
      change List.Forall₂ Refines l.kernel.parameters
        (l.kernel.call b.recording args inPlace l.world).kernel.parameters
      rw [call_settings]
      exact all_refl _

theorem run_refines (b : Backend σ) (l : Life σ) (ops : List Op) :
    List.Forall₂ Refines l.kernel.parameters (l.run b ops).kernel.parameters := by
  induction ops generalizing l with
  | nil => exact all_refl _
  | cons op rest ih => exact Refines.all_trans (step_refines b l op) (ih (l.step b op))

theorem run_resolved {b : Backend σ} {l : Life σ}
    (h : ∀ p ∈ l.kernel.parameters, p.isResolved = true) (ops : List Op) :
    ∀ q ∈ (l.run b ops).kernel.parameters, q.isResolved = true := by
  intro q hq
  obtain ⟨i, hi⟩ := List.mem_iff_getElem?.mp hq
  obtain ⟨p, hp, hrefines⟩ := Steps.place (run_refines b l ops).flip hi
  exact hrefines.resolved (h p (List.mem_of_getElem? hp))

end Life

namespace Session

/-- A definition that fails leaves a session as it was. -/
theorem step_defineTypes_refused {s : Session} {slot : String} {k : Kernel}
    {types names : Value} {e : Failure} (hslot : s.kernel? slot = some k)
    (h : k.defineTypes types names = .error e) :
    s.step (.defineTypes slot types names) = (s, ⟨.error (.failed e), 0, [], false⟩) := by
  obtain ⟨held, hheld, rfl⟩ := Option.map_eq_some_iff.mp hslot
  have hperform : Steps.perform (perform (.defineTypes slot types names)) { session := s } =
      (.error (.failed e), { session := s }) := by
    simp only [perform, Session.slot, Steps.perform_bind, Steps.perform_get, hheld,
      Steps.perform_pure, perform_attempt, h]
    rfl
  change (let ran := Steps.perform (perform (.defineTypes slot types names)) { session := s }
    (ran.2.session, (⟨ran.1, ran.2.session.directory.enumerations - s.directory.enumerations,
      ran.2.notes, ran.2.ownBackend⟩ : Report))) = _
  rw [hperform]
  dsimp only
  rw [Nat.sub_self]

end Session

namespace Kernel

theorem defineTypes_ok_iff {k k' : Kernel} {types names : Value}
    {pairs : List (String × String)} (h : Paired k.parameters types names pairs) :
    k.defineTypes types names = .ok k' ↔
      (∀ pair ∈ pairs, ∃ t, ElementType.Names pair.2 t) ∧
        k' = { k with parameters := k'.parameters } ∧
        List.Forall₂ (Substituted pairs) k.parameters k'.parameters := by
  have hmap : k.defineTypes types names = .ok k' ↔
      ∃ qs, override k.parameters types names = .ok qs ∧ k' = { k with parameters := qs } := by
    unfold defineTypes
    cases override k.parameters types names with
    | error e => simp [bind, Except.bind]
    | ok qs => simp [bind, Except.bind, pure, Except.pure, eq_comm]
  rw [hmap]
  constructor
  · rintro ⟨qs, hqs, rfl⟩
    obtain ⟨hnamed, hplaces⟩ := (override_ok_iff h).mp hqs
    exact ⟨hnamed, rfl, hplaces⟩
  · rintro ⟨hnamed, hrest, hplaces⟩
    exact ⟨k'.parameters, (override_ok_iff h).mpr ⟨hnamed, hplaces⟩, hrest⟩

theorem defineTypes_perm {k : Kernel} {types names types' names' : Value}
    {pairs pairs' : List (String × String)} (h : Paired k.parameters types names pairs)
    (h' : Paired k.parameters types' names' pairs') (hperm : pairs.Perm pairs') :
    (k.defineTypes types names).toOption = (k.defineTypes types' names').toOption := by
  have hsame (k' : Kernel) :
      k.defineTypes types names = .ok k' ↔ k.defineTypes types' names' = .ok k' := by
    rw [defineTypes_ok_iff h, defineTypes_ok_iff h']
    refine and_congr (forall_congr' fun pair => imp_congr_left hperm.mem_iff)
      (and_congr Iff.rfl ⟨?_, ?_⟩)
    · exact fun hplaces => hplaces.imp fun _ _ hs => hs.perm hperm
    · exact fun hplaces => hplaces.imp fun _ _ hs => hs.perm hperm.symm
  cases hdefined : k.defineTypes types names with
  | ok k' => rw [(hsame k').mp hdefined]
  | error e =>
      cases hdefined' : k.defineTypes types' names' with
      | error e' => rfl
      | ok k' => cases hdefined.symm.trans ((hsame k').mpr hdefined')

/-- The guarantees of `defineTypes` for a kernel. -/
structure DefinesTypes (b : Backend σ) (k : Kernel) : Prop where
  /-- The element type of a parameter becomes the one that is given for it, and nothing else
  changes. -/
  substitutes : ∀ types names pairs k', Paired k.parameters types names pairs →
    (k.defineTypes types names = .ok k' ↔
      (∀ pair ∈ pairs, ∃ t, ElementType.Names pair.2 t) ∧
        k' = { k with parameters := k'.parameters } ∧
        List.Forall₂ (Substituted pairs) k.parameters k'.parameters)
  accepted : ∀ types names pairs, Paired k.parameters types names pairs →
    (∀ pair ∈ pairs, ∃ t, ElementType.Names pair.2 t) → ∃ k', k.defineTypes types names = .ok k'
  permuted : ∀ types names pairs types' names' pairs', Paired k.parameters types names pairs →
    Paired k.parameters types' names' pairs' → pairs.Perm pairs' →
      (k.defineTypes types names).toOption = (k.defineTypes types' names').toOption
  /-- The names that are meant without any are the unresolved types, each once. -/
  discovered : (unresolved k.parameters).Nodup ∧ ∀ t, t ∈ unresolved k.parameters ↔
    ∃ p ∈ k.parameters, p.isResolved = false ∧ p.elementType = t
  inferred : ∀ types k', k.defineTypes types .absent = .ok k' →
    ∀ p ∈ k'.parameters, p.isResolved = true
  /-- After that no call complains of unresolved types, whatever comes between. -/
  callable : ∀ types (l : Life σ), k.defineTypes types .absent = .ok l.kernel →
    ∀ ops args inPlace (w : World σ) name unknown,
      ((l.run b ops).kernel.call b args inPlace w).outcome ≠
        .error (.kernel (.unresolvedTypes name unknown))
  lasting : ∀ l : Life σ, l.kernel = k → ∀ ops,
    List.Forall₂ Refines k.parameters (l.run b ops).kernel.parameters
  miscounted : ∀ types names items given, types.items = .ok items →
    aliases k.parameters names = .ok given → items.length ≠ given.length →
      ∃ e, k.defineTypes types names = .error e
  malformed : ∀ types names items v, types.items = .ok items → v ∈ items →
    (∀ name t, v = .text name → ¬ ElementType.Names name t) →
      ∃ e, k.defineTypes types names = .error e
  /-- A definition that fails leaves all as it was. -/
  refused : ∀ (s : Session) slot types names e, s.kernel? slot = some k →
    k.defineTypes types names = .error e →
      s.step (.defineTypes slot types names) = (s, ⟨.error (.failed e), 0, [], false⟩)

theorem defineTypes_fails {k : Kernel} {types names : Value}
    (h : ∀ qs, override k.parameters types names ≠ .ok qs) :
    ∃ e, k.defineTypes types names = .error e := by
  unfold defineTypes
  cases hoverride : override k.parameters types names with
  | error e => exact ⟨e, rfl⟩
  | ok qs => exact absurd hoverride (h qs)

theorem inferred_resolved {k k' : Kernel} {types : Value}
    (h : k.defineTypes types .absent = .ok k') : ∀ p ∈ k'.parameters, p.isResolved = true := by
  obtain ⟨qs, hoverride, hk'⟩ := Steps.bind_ok_iff.mp h
  cases hk'
  exact override_resolves hoverride

theorem defineTypes_defines {b : Backend σ} (hb : b.SparesTypes) (k : Kernel) :
    DefinesTypes b k where
  substitutes types names pairs k' hpaired := defineTypes_ok_iff hpaired
  accepted types names pairs hpaired hnamed := by
    obtain ⟨qs, hoverride, hplaces⟩ := exists_substituted hpaired hnamed
    exact ⟨{ k with parameters := qs }, (defineTypes_ok_iff hpaired).mpr ⟨hnamed, rfl, hplaces⟩⟩
  permuted _ _ _ _ _ _ hpaired hpaired' hperm := defineTypes_perm hpaired hpaired' hperm
  discovered := ⟨unresolvedFrom_nodup [] k.parameters, fun _ => mem_unresolved⟩
  inferred _ _ := inferred_resolved
  callable types l h ops args inPlace w name unknown he :=
    call_sparing hb (Life.run_resolved (inferred_resolved h) ops) args inPlace w _ he name unknown
      rfl
  lasting := by
    rintro l rfl ops
    exact Life.run_refines b l ops
  miscounted := by
    intro types names items given hitems hgiven hlength
    refine defineTypes_fails fun qs hoverride => hlength ?_
    obtain ⟨items', given', _, hitems', hgiven', hlength', _⟩ := override_inv hoverride
    cases hitems.symm.trans hitems'
    cases hgiven.symm.trans hgiven'
    exact hlength'
  malformed := by
    intro types names items v hitems hv hnone
    refine defineTypes_fails fun qs hoverride => ?_
    obtain ⟨items', _, cs, hitems', _, _, hnamed, _⟩ := override_inv hoverride
    cases hitems.symm.trans hitems'
    obtain ⟨i, hi⟩ := List.mem_iff_getElem?.mp hv
    obtain ⟨c, _, name, hname, hc⟩ := Steps.place hnamed hi
    exact hnone name c hname hc
  refused _ _ _ _ _ hslot h := Session.step_defineTypes_refused hslot h

/-- A kernel with two known types and one that is not. -/
def sampleOfThreeTypes : Kernel :=
  { interface := ⟨"f", "global float *x, global int *y, real_t a"⟩
    parameters := Parameter.ofSignature "global float *x, global int *y, real_t a"
    source := .named "f.cl"
    device := none
    includes := []
    compilerOptions := [] }

/-- Two types can be swapped in one go, and it does not matter which of them is named first. -/
theorem sample_definesTypes :
    openCL.SparesTypes ∧ DefinesTypes openCL sampleOfThreeTypes ∧
      (sampleOfThreeTypes.defineTypes (.list [.text "int32", .text "float32"])
          (.list [.text "float", .text "int32"])).toOption.map argumentTypes =
        some ["inout int32 vector", "inout float vector", "inout real_t scalar"] ∧
      (sampleOfThreeTypes.defineTypes (.list [.text "float32", .text "int32"])
          (.list [.text "int32", .text "float"])).toOption.map argumentTypes =
        some ["inout int32 vector", "inout float vector", "inout real_t scalar"] := by
  have hdefines := defineTypes_defines openCL_sparesTypes sampleOfThreeTypes
  have hswapped : (sampleOfThreeTypes.defineTypes (.list [.text "int32", .text "float32"])
      (.list [.text "float", .text "int32"])).toOption.map argumentTypes =
        some ["inout int32 vector", "inout float vector", "inout real_t scalar"] := by
    decide +kernel
  have hpermuted := hdefines.permuted (.list [.text "int32", .text "float32"])
    (.list [.text "float", .text "int32"]) [("float", "int32"), ("int32", "float32")]
    (.list [.text "float32", .text "int32"]) (.list [.text "int32", .text "float"])
    [("int32", "float32"), ("float", "int32")] ⟨rfl, rfl, by decide⟩ ⟨rfl, rfl, by decide⟩
    (.swap _ _ [])
  exact ⟨openCL_sparesTypes, hdefines, hswapped, hpermuted ▸ hswapped⟩

end Kernel

end KernelLaunch
