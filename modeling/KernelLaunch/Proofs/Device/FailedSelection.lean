import KernelLaunch.Proofs.Device.Selection

/-!
Selections that raise. `select` stores a value as soon as it passes the range comparison,
and only then uses it as a list index. So a failed selection has no effect beyond the first
enumeration, unless the value is a decoy: a number in range that is no integer, such as a
float. The main statement covers both cases.
-/

namespace KernelLaunch

open Host Device

namespace Host.Value

/-- A decoy passes the range check of `select` but cannot index a list: a float in range, for
example. -/
def IsDecoy (v : Value) (count : Nat) : Prop :=
  v.isBelow count = .ok true ∧ ∀ n, v.position ≠ .ok n

theorem position_error {v : Value} {e : Failure} (h : v.position = .error e) :
    e = .wrongKind := by
  unfold position at h
  split at h
  · cases h
  · cases h
  · cases h
  · split at h
    · cases h
    · cases h
      rfl
  · cases h
    rfl

theorem IsDecoy.position {v : Value} {count : Nat} (h : v.IsDecoy count) :
    v.position = .error .wrongKind := by
  cases hposition : v.position with
  | ok n => exact absurd hposition (h.2 n)
  | error e => rw [position_error hposition]

theorem not_isDecoy_absent (count : Nat) : ¬ IsDecoy (.atom .absent) count := by
  rintro ⟨hbelow, _⟩
  cases hbelow

end Host.Value

namespace Device.Directory

open Steps

variable {platforms : Platforms} {d : Directory} {v : Value}

/-- What lies among the positions has passed both comparisons, so a refresh takes it for
a selection that is still valid. -/
theorem isValid_of_isBelow {count : Nat} (h : v.isBelow count = .ok true) :
    isValid v count = true := by
  obtain ⟨least, _, hrest⟩ := bind_ok_iff.mp h
  have hlimit : (v.compareInt count >>= fun o => .ok (o == some .lt) : Except Failure Bool) =
      .ok true := by
    cases least with
    | none => cases hrest
    | some order =>
        cases order with
        | lt => cases hrest
        | eq => exact hrest
        | gt => exact hrest
  obtain ⟨order, hcompare, hless⟩ := bind_ok_iff.mp hlimit
  have horder : order = some .lt := beq_iff_eq.mp (Except.ok.inj hless)
  rw [isValid, hcompare, horder]

/-- Enumerating the same number of devices twice selects nothing else than once. -/
theorem reselected_again (selected : Option Value) (count : Nat) :
    reselected (reselected selected count) count = reselected selected count := by
  have hfirst : reselected (if 0 < count then some (.int 0) else none) count =
      if 0 < count then some (.int 0) else none := by
    by_cases hcount : 0 < count
    · have hvalid : isValid (.int 0) count = true := by
        rw [isValid_of_whole (n := 0) rfl]
        exact decide_eq_true (Int.natCast_pos.mpr hcount)
      rw [if_pos hcount]
      simp only [reselected, hvalid, if_true]
    · rw [if_neg hcount]
      simp only [reselected, if_neg hcount]
  cases selected with
  | none => exact hfirst
  | some v =>
      cases hvalid : isValid v count with
      | true => simp only [reselected, hvalid, if_true]
      | false =>
          have hlost : reselected (some v) count =
              if 0 < count then some (.int 0) else none := by
            simp only [reselected, hvalid, Bool.false_eq_true, if_false]
          rw [hlost, hfirst]

/-- A directory but for how often the platforms have been asked for. -/
def uncounted (d : Directory) : Directory := { d with enumerations := 0 }

theorem uncounted_accessed_again (platforms : Platforms) (d : Directory) :
    ((d.accessed platforms).accessed platforms).uncounted = (d.accessed platforms).uncounted := by
  cases hvisible : d.visible platforms with
  | ok ds => rw [accessed_of_listed (listed_accessed hvisible)]
  | error e =>
      obtain ⟨hlisted, hdevices⟩ := visible_error hvisible
      rw [accessed_of_unlisted hlisted, enumerated_of_error hdevices,
        accessed_of_unlisted (d := { d with enumerations := d.enumerations + 1 }) hlisted,
        enumerated_of_error (d := { d with enumerations := d.enumerations + 1 }) hdevices]
      rfl

theorem uncounted_enumerated_accessed (platforms : Platforms) (d : Directory) :
    ((d.accessed platforms).enumerated platforms).uncounted =
      (d.enumerated platforms).uncounted := by
  cases hlisted : d.listed with
  | some ds => rw [accessed_of_listed hlisted]
  | none =>
      rw [accessed_of_unlisted hlisted]
      cases hdevices : d.filter.devices platforms with
      | error e =>
          rw [enumerated_of_error hdevices,
            enumerated_of_error (d := { d with enumerations := d.enumerations + 1 }) hdevices]
          rfl
      | ok ds =>
          simp only [enumerated, hdevices, uncounted, reselected_again]

theorem filter_accessed (platforms : Platforms) (d : Directory) :
    (d.accessed platforms).filter = d.filter := by
  unfold accessed enumerated
  split
  · rfl
  · split <;> rfl

/-- A directory as a look at the devices leaves it, but for how often the platforms have
been asked for. -/
def glanced (platforms : Platforms) (d : Directory) : Directory :=
  (d.accessed platforms).uncounted

theorem glanced_accessed (platforms : Platforms) (d : Directory) :
    (d.accessed platforms).glanced platforms = d.glanced platforms :=
  uncounted_accessed_again platforms d

theorem glanced_uncounted (platforms : Platforms) (d : Directory) :
    d.uncounted.glanced platforms = d.glanced platforms := by
  cases hlisted : d.listed with
  | some ds =>
      have huncounted : d.uncounted.listed = some ds := hlisted
      rw [glanced, glanced, accessed_of_listed hlisted, accessed_of_listed huncounted]
      rfl
  | none =>
      have huncounted : d.uncounted.listed = none := hlisted
      rw [glanced, glanced, accessed_of_unlisted hlisted, accessed_of_unlisted huncounted]
      unfold enumerated
      cases hdevices : d.filter.devices platforms with
      | error e => rw [show d.uncounted.filter.devices platforms = .error e from hdevices]; rfl
      | ok ds => rw [show d.uncounted.filter.devices platforms = .ok ds from hdevices]; rfl

/-- Two queries with one outcome that leave the same directory to whoever looks at it. -/
def SameAnswer {α : Type} (platforms : Platforms) (x y : Except Failure α × Directory) :
    Prop :=
  x.1 = y.1 ∧ x.2.glanced platforms = y.2.glanced platforms

/-- Who has looked at the devices before is told the same device. -/
theorem current_accessed (platforms : Platforms) (d : Directory) :
    SameAnswer platforms (perform (current platforms) (d.accessed platforms))
      (perform (current platforms) d) := by
  rw [perform_current, perform_current, visible_accessed]
  refine ⟨?_, glanced_accessed platforms (d.accessed platforms)⟩
  cases hvisible : d.visible platforms with
  | error e => rfl
  | ok ds => rw [accessed_of_listed (listed_accessed hvisible)]

theorem refresh_accessed (platforms : Platforms) (d : Directory) :
    SameAnswer platforms (perform (refresh platforms) (d.accessed platforms))
      (perform (refresh platforms) d) := by
  rw [perform_refresh, perform_refresh, filter_accessed]
  refine ⟨rfl, ?_⟩
  rw [← glanced_uncounted, uncounted_enumerated_accessed, glanced_uncounted]

theorem perform_select_decoy {ds : List Device} (hvisible : d.visible platforms = .ok ds)
    (h : v.IsDecoy ds.length) :
    perform (select platforms v) d =
      (.error .wrongKind, { d.accessed platforms with selected := some v }) := by
  have hpresent : v ≠ .atom .absent := by
    rintro rfl
    exact Value.not_isDecoy_absent ds.length h
  rw [perform_select platforms d hpresent, hvisible]
  simp only [h.1, h.position]
  rfl

/-- With a decoy selected there is no current device to be had. -/
theorem perform_current_decoy {ds : List Device} {count : Nat} (hlisted : d.listed = some ds)
    (hselected : d.selected = some v) (h : v.IsDecoy count) :
    perform (current platforms) d = (.error .wrongKind, d) := by
  rw [perform_current, accessed_of_listed hlisted, hselected]
  simp only [visible, hlisted, h.position]
  rfl

/-- What lies among the positions and names one of them has its device. -/
theorem select_position {ds : List Device} {n : Int} (hbelow : v.isBelow ds.length = .ok true)
    (hposition : v.position = .ok n) : ∃ device, (v.position >>= itemAt ds) = .ok device := by
  rw [Value.isBelow_of_position hposition] at hbelow
  have hvalid : 0 ≤ n ∧ n < ds.length := of_decide_eq_true (Except.ok.inj hbelow)
  obtain ⟨device, hitem, _⟩ := itemAt_of_lt hvalid.1 hvalid.2
  rw [hposition]
  exact ⟨device, hitem⟩

/-- Any other selection that fails has only looked at the devices. -/
theorem perform_select_refused {e : Failure} {after : Directory}
    (h : perform (select platforms v) d = (.error e, after))
    (hdecoy : ∀ ds, d.visible platforms = .ok ds → ¬ v.IsDecoy ds.length) :
    after = d.accessed platforms := by
  by_cases hpresent : v = .atom .absent
  · subst hpresent
    rw [perform_select_absent] at h
    cases hvisible : d.visible platforms with
    | error e' =>
        rw [hvisible] at h
        exact (Prod.mk.inj h).2.symm
    | ok ds =>
        rw [hvisible] at h
        cases h
  · rw [perform_select platforms d hpresent] at h
    cases hvisible : d.visible platforms with
    | error e' =>
        rw [hvisible] at h
        exact (Prod.mk.inj h).2.symm
    | ok ds =>
        simp only [hvisible] at h
        cases hbelow : v.isBelow ds.length with
        | error e' =>
            rw [hbelow] at h
            exact (Prod.mk.inj h).2.symm
        | ok below =>
            rw [hbelow] at h
            cases below with
            | false => exact (Prod.mk.inj h).2.symm
            | true =>
                cases hposition : v.position with
                | ok n =>
                    obtain ⟨device, hdevice⟩ := select_position hbelow hposition
                    simp only [hdevice] at h
                    cases h
                | error e' =>
                    refine absurd ⟨hbelow, ?_⟩ (hdecoy ds hvisible)
                    intro n hn
                    rw [hposition] at hn
                    cases hn

end Device.Directory

namespace Session

open Device.Directory

theorem perform_attempt {α : Type} (x : Except Failure α) (r : Running) :
    Steps.perform (attempt x) r = (x.mapError .failed, r) := by
  cases x <;> rfl

theorem perform_act {α : Type} (action : Action Machine α) (r : Running) :
    Steps.perform (act action) r =
      ((action.perform ⟨r.session.machine, []⟩).1.mapError .failed,
        { r with
          session := { r.session with machine := (action.perform ⟨r.session.machine, []⟩).2.state }
          notes := r.notes ++ (action.perform ⟨r.session.machine, []⟩).2.notes }) := by
  unfold act
  rw [Steps.perform_bind]
  simp only [Steps.perform_get]
  cases haction : action.perform ⟨r.session.machine, []⟩ with
  | mk outcome w => cases outcome <;> rfl

/-- Kernel construction over any directory: the source is refused before the directory is
asked, or the kernel is made with the current device. -/
inductive Making (s : Session) (slot : String) (t : Step) : Prop
  | refused (e : Failure) (machine : Machine) (slots : List (String × Slot)) (notes : List Note)
      (h : ∀ d, { s with directory := d }.step t =
        ({ s with machine, slots, directory := d }, ⟨.error (.failed e), 0, notes, false⟩))
  | made (make : Option Device → Slot) (machine : Machine) (slots : List (String × Slot))
      (notes : List Note)
      (h : ∀ d answer after, Steps.perform (Directory.current s.platforms) d = (answer, after) →
        { s with directory := d }.step t =
          ({ s with
              machine
              slots := answer.toOption.elim slots fun device =>
                (slot, make device) :: slots.filter (·.1 != slot)
              directory := after },
            ⟨(answer.map fun device => .kernel (make device).kernel).mapError .failed,
              after.enumerations - d.enumerations, notes, false⟩))

theorem making (s : Session) (slot source : String) (wanted : Option String)
    (given : Option Template.Given) (ownBackend : Bool) :
    Making s slot (.kernel slot source wanted given ownBackend) := by
  have hstep (d : Directory) : { s with directory := d }.step
        (.kernel slot source wanted given ownBackend) =
      let ran := Steps.perform (perform (.kernel slot source wanted given ownBackend))
        { session := { s with directory := d } }
      (ran.2.session, ⟨ran.1, ran.2.session.directory.enumerations - d.enumerations,
        ran.2.notes, ran.2.ownBackend⟩) := rfl
  simp only [perform, clear, put, change, Steps.perform_bind, Steps.perform_modify, perform_act,
    perform_attempt, perform_ask] at hstep
  rcases hload : (LoadedSource.load source given).perform ⟨s.machine, []⟩ with ⟨e | loaded, w⟩
  · refine .refused e w.state (s.slots.filter (·.1 != slot)) w.notes fun d => ?_
    rw [hstep, hload]
    simp [Except.mapError]
  · cases hmake : Kernel.ofSource loaded wanted with
    | error e =>
        refine .refused e w.state (s.slots.filter (·.1 != slot)) w.notes fun d => ?_
        rw [hstep, hload]
        simp [Except.mapError, hmake]
    | ok make =>
        refine .made (fun device => ⟨make device, ownBackend⟩) w.state
          (s.slots.filter (·.1 != slot)) w.notes fun d answer after hcurrent => ?_
        rw [hstep, hload]
        simp only [Except.mapError, hmake, hcurrent]
        cases answer with
        | error e => simp [Except.toOption, Except.map]
        | ok device => rfl

/-- A session as a look at the devices leaves it, but for how often the platforms have
been asked for. -/
def glanced (s : Session) : Session :=
  { s with directory := s.directory.glanced s.platforms }

/-- The steps that depend on which device is selected. -/
inductive Step.Consults : Step → Prop
  | current : Consults .current
  | refresh : Consults .refresh
  | kernel (slot source : String) (wanted : Option String) (given : Option Template.Given)
      (ownBackend : Bool) : Consults (.kernel slot source wanted given ownBackend)

/-- A step comes to the same in two sessions. -/
structure SameStep (s s' : Session) (t : Step) : Prop where
  outcome : (s.step t).2.outcome = (s'.step t).2.outcome
  notes : (s.step t).2.notes = (s'.step t).2.notes
  session : (s.step t).1.glanced = (s'.step t).1.glanced

variable {s : Session} {d : Directory}

theorem sameStep_of_ask {α : Type} {query : Platforms → Directory.Query α} {f : α → Answer}
    {t : Step} (ht : perform t = f <$> ask query)
    (h : SameAnswer s.platforms (Steps.perform (query s.platforms) d)
      (Steps.perform (query s.platforms) s.directory)) :
    SameStep { s with directory := d } s t := by
  cases hthere : Steps.perform (query s.platforms) d with
  | mk outcome after =>
      cases hhere : Steps.perform (query s.platforms) s.directory with
      | mk outcome' after' =>
          rw [hthere, hhere] at h
          have houtcome : outcome = outcome' := h.1
          have hafter : after.glanced s.platforms = after'.glanced s.platforms := h.2
          subst houtcome
          constructor
          · rw [step_ask ht { s with directory := d } hthere, step_ask ht s hhere]
          · rw [step_ask ht { s with directory := d } hthere, step_ask ht s hhere]
          · rw [step_ask ht { s with directory := d } hthere, step_ask ht s hhere]
            simp only [glanced, hafter]

theorem sameStep_kernel
    (h : SameAnswer s.platforms (Steps.perform (Directory.current s.platforms) d)
      (Steps.perform (Directory.current s.platforms) s.directory))
    (hd : d.glanced s.platforms = s.directory.glanced s.platforms)
    (slot source : String) (wanted : Option String) (given : Option Template.Given)
    (ownBackend : Bool) :
    SameStep { s with directory := d } s (.kernel slot source wanted given ownBackend) := by
  cases making s slot source wanted given ownBackend with
  | refused e machine slots notes hrefused =>
      have hhere := hrefused s.directory
      constructor
      · rw [hrefused d, hhere]
      · rw [hrefused d, hhere]
      · rw [hrefused d, hhere]
        simp only [glanced, hd]
  | made make machine slots notes hmade =>
      cases hthere : Steps.perform (Directory.current s.platforms) d with
      | mk answer after =>
          cases hhere : Steps.perform (Directory.current s.platforms) s.directory with
          | mk answer' after' =>
              rw [hthere, hhere] at h
              have hanswer : answer = answer' := h.1
              have hafter : after.glanced s.platforms = after'.glanced s.platforms := h.2
              subst hanswer
              have hstep := hmade s.directory answer after' hhere
              constructor
              · rw [hmade d answer after hthere, hstep]
              · rw [hmade d answer after hthere, hstep]
              · rw [hmade d answer after hthere, hstep]
                simp only [glanced, hafter]

/-- Looking at the devices first makes no difference to what depends on the selection. -/
theorem sameStep_accessed (s : Session) {t : Step} (ht : t.Consults) :
    SameStep { s with directory := s.directory.accessed s.platforms } s t := by
  cases ht with
  | current => exact sameStep_of_ask rfl (current_accessed s.platforms s.directory)
  | refresh =>
      exact sameStep_of_ask (f := fun _ => .done) rfl (refresh_accessed s.platforms s.directory)
  | kernel slot source wanted given ownBackend =>
      exact sameStep_kernel (current_accessed s.platforms s.directory)
        (glanced_accessed s.platforms s.directory) slot source wanted given ownBackend

/-- Whether a value is a decoy among the devices that can be seen. -/
def Decoyed (s : Session) (v : Value) : Prop :=
  ∃ ds, (s.step .devices).2.outcome = .ok (.devices ds) ∧ v.IsDecoy ds.length

/-- A failed `select` that had no effect but a first enumeration. -/
structure Undone (s : Session) (v : Value) : Prop where
  /-- The session is as if the devices had been looked at instead. -/
  looked : (s.step (.select v)).1 = (s.step .devices).1
  unchanged : s.directory.listed.isSome → (s.step (.select v)).1 = s
  /-- What depends on the selection comes to the same as without the step. -/
  consults : ∀ t : Step, t.Consults → SameStep (s.step (.select v)).1 s t

/-- A failed `select` that has stored a decoy: `current` and kernel construction raise from
then on, and a refresh that finds as many devices keeps the decoy. -/
structure Spoilt (s : Session) (v : Value) : Prop where
  selected : (s.step (.select v)).1.directory.selected = some v
  current : ((s.step (.select v)).1.step .current).2.outcome = .error (.failed .wrongKind)
  kernel : ∀ slot source wanted given ownBackend, ∃ e,
    ((s.step (.select v)).1.step (.kernel slot source wanted given ownBackend)).2.outcome =
      .error (.failed e)
  refresh : ∀ ds, s.directory.filter.devices s.platforms = .ok ds → v.IsDecoy ds.length →
    ((s.step (.select v)).1.step .refresh).1.directory.selected = some v

theorem step_devices (s : Session) :
    (s.step .devices).1 = { s with directory := s.directory.accessed s.platforms } := by
  rw [step_ask (f := .devices) rfl s (perform_devices _ _)]

theorem undone_of_error {v : Value} {e : StepFailure}
    (h : (s.step (.select v)).2.outcome = .error e) (hdecoy : ¬ s.Decoyed v) : s.Undone v := by
  cases hselect : Steps.perform (Directory.select s.platforms v) s.directory with
  | mk outcome after =>
      have hstep := step_ask (t := .select v) (f := .device) rfl s hselect
      have hafter : after = s.directory.accessed s.platforms := by
        cases outcome with
        | ok device =>
            rw [hstep] at h
            cases h
        | error e' =>
            apply perform_select_refused hselect
            intro ds hvisible hv
            exact hdecoy ⟨ds, devices_answer.mpr hvisible, hv⟩
      have hsession : (s.step (.select v)).1 =
          { s with directory := s.directory.accessed s.platforms } := by
        rw [hstep, hafter]
      constructor
      · rw [hsession, step_devices]
      · intro hlisted
        obtain ⟨ds, hds⟩ := Option.isSome_iff_exists.mp hlisted
        rw [hsession, accessed_of_listed hds]
      · intro t ht
        rw [hsession]
        exact sameStep_accessed s ht

section Decoys

variable {v : Value} {ds : List Device} {count : Nat}

theorem current_decoy (hlisted : s.directory.listed = some ds)
    (hselected : s.directory.selected = some v) (hv : v.IsDecoy count) :
    (s.step .current).2.outcome = .error (.failed .wrongKind) := by
  have hcurrent : Steps.perform (current s.platforms) s.directory =
      (.error .wrongKind, s.directory) := perform_current_decoy hlisted hselected hv
  rw [step_ask (f := .device) rfl s hcurrent]
  rfl

theorem kernel_decoy (hlisted : s.directory.listed = some ds)
    (hselected : s.directory.selected = some v) (hv : v.IsDecoy count)
    (slot source : String) (wanted : Option String) (given : Option Template.Given)
    (ownBackend : Bool) :
    ∃ e, (s.step (.kernel slot source wanted given ownBackend)).2.outcome =
      .error (.failed e) := by
  have hcurrent : Steps.perform (current s.platforms) s.directory =
      (.error .wrongKind, s.directory) := perform_current_decoy hlisted hselected hv
  cases making s slot source wanted given ownBackend with
  | refused e machine slots notes h => exact ⟨e, by rw [h s.directory]⟩
  | made make machine slots notes h =>
      refine ⟨.wrongKind, ?_⟩
      rw [h s.directory (.error .wrongKind) s.directory hcurrent]
      rfl

theorem refresh_decoy (hselected : s.directory.selected = some v)
    (hdevices : s.directory.filter.devices s.platforms = .ok ds) (hv : v.IsDecoy ds.length) :
    (s.step .refresh).1.directory.selected = some v := by
  rw [step_ask (f := fun _ => .done) rfl s (perform_refresh _ _)]
  simp only [Directory.enumerated, hdevices, hselected, reselected, isValid_of_isBelow hv.1,
    if_true]

theorem spoilt_of_decoyed (hdecoy : s.Decoyed v) : s.Spoilt v := by
  obtain ⟨ds, hdevices, hv⟩ := hdecoy
  have hvisible : s.directory.visible s.platforms = .ok ds := devices_answer.mp hdevices
  have hstep := step_ask (t := .select v) (f := .device) rfl s (perform_select_decoy hvisible hv)
  have hlisted : (s.step (.select v)).1.directory.listed = some ds := by
    rw [hstep]
    exact listed_accessed hvisible
  have hselected : (s.step (.select v)).1.directory.selected = some v := by rw [hstep]
  have hfilter : (s.step (.select v)).1.directory.filter = s.directory.filter := by
    rw [hstep]
    exact filter_accessed s.platforms s.directory
  have hplatforms : (s.step (.select v)).1.platforms = s.platforms := by rw [hstep]
  constructor
  · exact hselected
  · exact current_decoy hlisted hselected hv
  · exact kernel_decoy hlisted hselected hv
  · intro found hfound hdecoy
    apply refresh_decoy hselected _ hdecoy
    rw [hfilter, hplatforms, hfound]

end Decoys

/-- A `select` that raises, for any value and any reason, is undone unless the value is a
decoy, and a decoy stays selected. -/
theorem select_failed {v : Value} {e : StepFailure}
    (h : (s.step (.select v)).2.outcome = .error e) :
    (¬ s.Decoyed v → s.Undone v) ∧ (s.Decoyed v → s.Spoilt v) :=
  ⟨undone_of_error h, spoilt_of_decoyed⟩

/-- Zero as a number with a fraction. -/
def fractionalZero : Value := .atom (.real (.ofInt .double 0))

/-- A number with a fraction that is equal to the first position is a decoy for it. -/
theorem isDecoy_of_zero {x : Number.Binary .double} {count : Nat}
    (hzero : x.compareInt? 0 = some .eq) (hcount : x.compareInt? count = some .lt) :
    (Value.atom (.real x)).IsDecoy count := by
  constructor
  · simp only [Value.isBelow, Value.compareInt, bind, Except.bind, hzero, hcount]
    rfl
  · intro n hposition
    cases hposition

theorem sampleSession_decoyed : sampleSession.Decoyed fractionalZero :=
  ⟨_, rfl, isDecoy_of_zero (by decide +kernel) (by decide +kernel)⟩

/-- Of two devices the third cannot be selected. -/
theorem sample_select_failed :
    (sampleSession.step (.select (.int 2))).2.outcome =
        .error (.failed (.kernel (.deviceIndex (.int 2) 2))) ∧
      sampleSession.Undone (.int 2) := by
  have houtcome : (sampleSession.step (.select (.int 2))).2.outcome =
      .error (.failed (.kernel (.deviceIndex (.int 2) 2))) := by rfl
  refine ⟨houtcome, (select_failed houtcome).1 ?_⟩
  rintro ⟨ds, _, _, hposition⟩
  exact hposition 2 rfl

/-- Selecting the first device by a float raises, and `current` raises afterwards. -/
theorem fraction_takes_current_away :
    (sampleSession.step (.select fractionalZero)).2.outcome = .error (.failed .wrongKind) ∧
    ((sampleSession.step (.select fractionalZero)).1.step .current).2.outcome =
      .error (.failed .wrongKind) ∧
    ∃ device, (sampleSession.step .current).2.outcome = .ok (.device (some device)) := by
  obtain ⟨ds, hdevices, hdecoy⟩ := sampleSession_decoyed
  have hselect := perform_select_decoy (devices_answer.mp hdevices) hdecoy
  refine ⟨?_, (spoilt_of_decoyed sampleSession_decoyed).current, _, rfl⟩
  rw [step_ask (t := .select fractionalZero) (f := .device) rfl sampleSession hselect]
  rfl

end Session

end KernelLaunch
