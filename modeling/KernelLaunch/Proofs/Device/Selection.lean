import KernelLaunch.Proofs.Device.Queries
import KernelLaunch.Session

/-!
The device directory as a state machine. Platform sources may change, or raise, at any time,
but the directory notices only at a refresh or at its first access. The main statement says,
after any steps, which device is current, what a failed enumeration or selection leaves
unchanged, and how often the platform source is called.
-/

namespace KernelLaunch

open Host Device

namespace Device.Directory

open Steps

/-- The directory invariant: each device has its list position as index, and the selection is
a valid index. -/
structure Orderly (d : Directory) : Prop where
  positions : ∀ ds, d.listed = some ds → ∀ (i : Nat) device, ds[i]? = some device →
    device.index = i
  selection : ∀ v, d.selected = some v → ∃ ds n, d.listed = some ds ∧ v.whole? = some n ∧
    0 ≤ n ∧ n < ds.length

/-- The position of the selected device. -/
def selection (d : Directory) : Option Int := d.selected.bind Value.whole?

/-- The position that is selected after an enumeration: the same if there is a device
left, else the first. -/
def kept (selection : Option Int) (count : Nat) : Option Int :=
  match selection with
  | some n => if n < count then some n else if 0 < count then some 0 else none
  | none => if 0 < count then some 0 else none

theorem Filter.positions {filter : Filter} {platforms : Platforms} {ds : List Device}
    (h : filter.devices platforms = .ok ds) (i : Nat) {device : Device}
    (hdevice : ds[i]? = some device) : device.index = i := by
  obtain ⟨_, _, hlisted⟩ := Steps.bind_ok_iff.mp h
  obtain ⟨accepted, _, hds⟩ := Steps.bind_ok_iff.mp hlisted
  cases hds
  rw [List.getElem?_mapIdx] at hdevice
  obtain ⟨pair, _, rfl⟩ := Option.map_eq_some_iff.mp hdevice
  rfl

theorem initial_orderly (filter : Filter) : (initial filter).Orderly where
  positions _ h := by cases h
  selection _ h := by cases h

namespace Orderly

variable {d : Directory}

/-- A selection is kept or replaced, and is valid among the new devices. -/
theorem reselected_valid (h : d.Orderly) (count : Nat) {v : Value}
    (hv : reselected d.selected count = some v) :
    ∃ n, v.whole? = some n ∧ 0 ≤ n ∧ n < count := by
  have hfirst : (if 0 < count then some (Value.int 0) else none) = some v →
      ∃ n, v.whole? = some n ∧ 0 ≤ n ∧ n < count := by
    intro hzero
    split at hzero
    · next hcount =>
      cases hzero
      exact ⟨0, rfl, Int.le_refl 0, Int.natCast_pos.mpr hcount⟩
    · cases hzero
  unfold reselected at hv
  cases hselected : d.selected with
  | none => exact hfirst (by simpa [hselected] using hv)
  | some old =>
      obtain ⟨_, n, _, hwhole, hnonneg, _⟩ := h.selection old hselected
      simp only [hselected, isValid_of_whole hwhole, decide_eq_true_eq] at hv
      split at hv
      · next hlt =>
        cases hv
        exact ⟨n, hwhole, hnonneg, hlt⟩
      · exact hfirst hv

theorem enumerated (h : d.Orderly) (platforms : Platforms) :
    (d.enumerated platforms).Orderly := by
  unfold Directory.enumerated
  cases hdevices : d.filter.devices platforms with
  | error e => exact ⟨h.positions, h.selection⟩
  | ok devices =>
      constructor
      · intro ds hds i device hdevice
        cases hds
        exact Filter.positions hdevices i hdevice
      · intro v hv
        obtain ⟨n, hn⟩ := h.reselected_valid devices.length hv
        exact ⟨devices, n, rfl, hn⟩

theorem accessed (h : d.Orderly) (platforms : Platforms) :
    (d.accessed platforms).Orderly := by
  unfold Directory.accessed
  split
  · exact h
  · exact h.enumerated platforms

/-- The position that is selected among some devices is that of one of them. -/
theorem selected_device (h : d.Orderly) {ds : List Device} (hds : d.listed = some ds)
    {v : Value} (hv : d.selected = some v) :
    ∃ device, v.position >>= itemAt ds = .ok device ∧ device ∈ ds ∧
      v.whole? = some device.index := by
  obtain ⟨ds', n, hds', hwhole, hnonneg, hlt⟩ := h.selection v hv
  cases hds.symm.trans hds'
  obtain ⟨device, hitem, hdevice⟩ := itemAt_of_lt hnonneg hlt
  have hindex : device.index = n := by
    rw [h.positions ds hds n.toNat device hdevice]
    omega
  refine ⟨device, ?_, List.mem_of_getElem? hdevice, hindex ▸ hwhole⟩
  rw [Value.position_of_whole hwhole]
  exact hitem

theorem selection_eq_none (h : d.Orderly) : d.selection = none ↔ d.selected = none := by
  unfold Directory.selection
  cases hselected : d.selected with
  | none => simp
  | some v =>
      obtain ⟨_, n, _, hwhole, _⟩ := h.selection v hselected
      simp [hwhole]

/-- A refresh treats the selection as the position that it stands for. -/
theorem reselected_whole (h : d.Orderly) (count : Nat) :
    (reselected d.selected count).bind Value.whole? = kept d.selection count := by
  have hfirst : (if 0 < count then some (Value.int 0) else none).bind Value.whole? =
      if 0 < count then some 0 else none := by
    split <;> rfl
  unfold reselected Directory.selection
  cases hselected : d.selected with
  | none => exact hfirst
  | some v =>
      obtain ⟨_, n, _, hwhole, _⟩ := h.selection v hselected
      simp only [Option.bind_some, hwhole, kept, isValid_of_whole hwhole, decide_eq_true_eq]
      split
      · exact hwhole
      · exact hfirst

theorem selection_nonneg (h : d.Orderly) {n : Int} (hn : d.selection = some n) : 0 ≤ n := by
  obtain ⟨v, hv, hwhole⟩ := Option.bind_eq_some_iff.mp hn
  obtain ⟨_, m, _, hm, hnonneg, _⟩ := h.selection v hv
  cases hwhole.symm.trans hm
  exact hnonneg

theorem kept_eq_none (h : d.Orderly) (count : Nat) :
    kept d.selection count = none ↔ count = 0 := by
  unfold kept
  cases hselection : d.selection with
  | none => simp
  | some n =>
      have hnonneg := h.selection_nonneg hselection
      by_cases hlt : n < count
      · have hcount : count ≠ 0 := by omega
        simp [hlt, hcount]
      · simp [hlt]

end Orderly

end Device.Directory

namespace Session

open Device.Directory

/-- A step on the directory. A device is selected by an integer. -/
inductive Step.OnDirectory : Step → Prop
  | platforms (ps : Platforms) : OnDirectory (.platforms ps)
  | refresh : OnDirectory .refresh
  | devices : OnDirectory .devices
  | iterate : OnDirectory .iterate
  | count : OnDirectory .count
  | item (position : Value) : OnDirectory (.item position)
  | current : OnDirectory .current
  | countKind (kind : Value) : OnDirectory (.countKind kind)
  | deselect : OnDirectory (.select (.atom .absent))
  | select {v : Value} {n : Int} (h : v.whole? = some n) : OnDirectory (.select v)

/-- Whether a step looks at the devices. An unknown kind is refused before. -/
def Step.accesses : Step → Bool
  | .devices | .iterate | .count | .item _ | .current | .select _ => true
  | .countKind kind => (Counted.ofValue kind).isOk
  | _ => false

/-- How often a step calls the platform source, by whether an enumeration has succeeded
before. -/
def Step.asks (enumerated : Bool) : Step → Nat
  | .refresh => 1
  | t => if t.accesses && !enumerated then 1 else 0

/-- Whether a device can be selected with a value: with a position, or none with none. -/
def Selectable (v : Value) (count : Nat) : Prop :=
  v = .atom .absent ∨ ∃ n, v.whole? = some n ∧ 0 ≤ n ∧ n < count

def run (s : Session) (steps : List Step) : Session := steps.foldl (fun s t => (s.step t).1) s

/-- Whether one of several steps has enumerated the devices with success. -/
def enumerated (s : Session) : List Step → Bool
  | [] => false
  | t :: rest =>
      ((s.step t).2.enumerations != 0 && (s.directory.filter.devices s.platforms).isOk) ||
        (s.step t).1.enumerated rest

theorem perform_ask {α : Type} (query : Platforms → Directory.Query α) (r : Running) :
    Steps.perform (ask query) r =
      ((Steps.perform (query r.session.platforms) r.session.directory).1.mapError .failed,
        { r with session := { r.session with directory :=
          (Steps.perform (query r.session.platforms) r.session.directory).2 } }) := by
  unfold ask
  rw [Steps.perform_bind]
  simp only [Steps.perform_get]
  cases hquery : Steps.perform (query r.session.platforms) r.session.directory with
  | mk outcome after =>
      have hrun : (query r.session.platforms).run.run r.session.directory = (outcome, after) :=
        hquery
      rw [hrun]
      cases outcome <;> rfl

/-- A step that asks the directory and does nothing else. -/
theorem step_ask {α : Type} {query : Platforms → Directory.Query α} {f : α → Answer}
    {t : Step} (h : perform t = f <$> ask query) (s : Session) {outcome : Except Failure α}
    {after : Directory}
    (hquery : Steps.perform (query s.platforms) s.directory = (outcome, after)) :
    s.step t =
      ({ s with directory := after },
        { outcome := (outcome.map f).mapError .failed
          enumerations := after.enumerations - s.directory.enumerations
          notes := []
          ownBackend := false }) := by
  have hrun : Steps.perform (perform t) { session := s } =
      ((outcome.map f).mapError .failed, { session := { s with directory := after } }) := by
    rw [h, Steps.perform_map, perform_ask, hquery]
    cases outcome <;> rfl
  unfold Steps.perform at hrun
  simp only [step, hrun]

/-- The transition relation of directory steps: the directory after a step, and its
outcome. -/
inductive Turn (platforms : Platforms) (d : Directory) :
    Step → Directory → Except StepFailure Answer → Prop
  | idle {t : Step} {r} (hrefresh : t ≠ .refresh) (haccesses : t.accesses = false) :
      Turn platforms d t d r
  | refreshed {ds : List Device} (hdevices : d.filter.devices platforms = .ok ds) :
      Turn platforms d .refresh (d.enumerated platforms) (.ok .done)
  | seen {t : Step} {ds : List Device} {r} (haccesses : t.accesses = true)
      (hvisible : d.visible platforms = .ok ds) : Turn platforms d t (d.accessed platforms) r
  | selected {v : Value} {ds : List Device} {chosen : Option Value} {device : Option Device}
      (hvisible : d.visible platforms = .ok ds)
      (hchosen : ∀ w, chosen = some w → ∃ n, w.whole? = some n ∧ 0 ≤ n ∧ n < ds.length) :
      Turn platforms d (.select v) { d.accessed platforms with selected := chosen }
        (.ok (.device device))
  | failed {t : Step} {e : Failure} (hdevices : d.filter.devices platforms = .error e)
      (hasks : t.asks d.listed.isSome = 1) :
      Turn platforms d t { d with enumerations := d.enumerations + 1 } (.error (.failed e))

theorem asks_of_accesses {t : Step} (h : t.accesses = true) (enumerated : Bool) :
    t.asks enumerated = cond enumerated 0 1 := by
  cases t <;> cases enumerated <;> simp_all [Step.accesses, Step.asks]

theorem Turn.of_visible_error {platforms : Platforms} {d : Directory} {t : Step} {e : Failure}
    (haccesses : t.accesses = true) (h : d.visible platforms = .error e) :
    Turn platforms d t (d.accessed platforms) (.error (.failed e)) := by
  obtain ⟨hlisted, hdevices⟩ := visible_error h
  rw [accessed_of_unlisted hlisted, enumerated_of_error hdevices]
  apply Turn.failed hdevices
  rw [asks_of_accesses haccesses, hlisted]
  rfl

/-- A step that looks at the devices, and answers from what it sees. -/
theorem turn_of_looking {α : Type} {query : Platforms → Directory.Query α} {f : α → Answer}
    {g : List Device → Except Failure α} {t : Step} (ht : perform t = f <$> ask query)
    (haccesses : t.accesses = true) (s : Session)
    (hquery : Steps.perform (query s.platforms) s.directory =
      (s.directory.visible s.platforms >>= g, s.directory.accessed s.platforms)) :
    Turn s.platforms s.directory t (s.step t).1.directory (s.step t).2.outcome := by
  rw [step_ask ht s hquery]
  cases hvisible : s.directory.visible s.platforms with
  | ok ds => exact .seen haccesses hvisible
  | error e => exact .of_visible_error haccesses hvisible

theorem step_turn {t : Step} (ht : t.OnDirectory) (s : Session) :
    Turn s.platforms s.directory t (s.step t).1.directory (s.step t).2.outcome := by
  have hdevices : Steps.perform (Directory.devices s.platforms) s.directory =
      (s.directory.visible s.platforms >>= .ok, s.directory.accessed s.platforms) := by
    rw [perform_devices]
    cases s.directory.visible s.platforms <;> rfl
  cases ht with
  | platforms ps => exact .idle nofun rfl
  | refresh =>
      rw [step_ask (f := fun _ => .done) rfl s (perform_refresh _ _)]
      cases hfilter : s.directory.filter.devices s.platforms with
      | ok ds => exact .refreshed hfilter
      | error e =>
          rw [enumerated_of_error hfilter]
          exact .failed hfilter rfl
  | devices => exact turn_of_looking rfl rfl s hdevices
  | iterate => exact turn_of_looking (f := fun ds => .texts (ds.map (·.text))) rfl rfl s hdevices
  | count => exact turn_of_looking (f := fun ds => .number ds.length) rfl rfl s hdevices
  | item position =>
      exact turn_of_looking (f := Answer.device ∘ some) rfl rfl s (perform_item _ position _)
  | current => exact turn_of_looking rfl rfl s (perform_current _ _)
  | countKind kind =>
      have hcount := perform_count s.platforms kind s.directory
      cases hkind : Counted.ofValue kind with
      | error e =>
          rw [hkind] at hcount
          rw [step_ask (f := .positions) rfl s hcount]
          exact .idle nofun (by rw [Step.accesses, hkind]; rfl)
      | ok counted =>
          have haccesses : (Step.countKind kind).accesses = true := by
            rw [Step.accesses, hkind]
            rfl
          rw [hkind] at hcount
          exact turn_of_looking rfl haccesses s hcount
  | deselect =>
      have hselect := perform_select_absent s.platforms s.directory
      cases hvisible : s.directory.visible s.platforms with
      | ok ds =>
          rw [hvisible] at hselect
          rw [step_ask (f := .device) rfl s hselect]
          exact .selected hvisible nofun
      | error e =>
          rw [hvisible] at hselect
          rw [step_ask (f := .device) rfl s hselect]
          exact .of_visible_error rfl hvisible
  | @select v n h =>
      have hselect := perform_select_whole s.platforms s.directory h
      cases hvisible : s.directory.visible s.platforms with
      | ok ds =>
          simp only [hvisible] at hselect
          split at hselect
          · next hvalid =>
            rw [step_ask (f := .device) rfl s hselect]
            refine .selected hvisible ?_
            intro w hw
            cases hw
            exact ⟨n, h, hvalid⟩
          · rw [step_ask (f := .device) rfl s hselect]
            exact .seen rfl hvisible
      | error e =>
          rw [hvisible] at hselect
          rw [step_ask (f := .device) rfl s hselect]
          exact .of_visible_error rfl hvisible

namespace Turn

variable {platforms : Platforms} {d after : Directory} {t : Step}
  {r : Except StepFailure Answer}

theorem orderly (h : Turn platforms d t after r) (hd : d.Orderly) : after.Orderly := by
  cases h with
  | idle => exact hd
  | refreshed => exact hd.enumerated platforms
  | seen => exact hd.accessed platforms
  | selected hvisible hchosen =>
      have hlisted := listed_accessed hvisible
      refine ⟨(hd.accessed platforms).positions, ?_⟩
      intro v hv
      obtain ⟨n, hn⟩ := hchosen v hv
      exact ⟨_, n, hlisted, hn⟩
  | failed => exact ⟨hd.positions, hd.selection⟩

/-- The platforms are asked for by each refresh, and else until the devices are listed. -/
theorem enumerations (h : Turn platforms d t after r) :
    after.enumerations = d.enumerations + t.asks d.listed.isSome := by
  cases h with
  | idle hrefresh haccesses => cases t <;> simp_all [Step.asks]
  | refreshed => exact enumerations_enumerated platforms d
  | seen haccesses => rw [asks_of_accesses haccesses, enumerations_accessed]
  | @selected v =>
      rw [asks_of_accesses (t := .select v) rfl]
      exact enumerations_accessed platforms d
  | failed _ hasks => rw [hasks]

theorem listed_of_visible {ds : List Device} (haccesses : t.accesses = true)
    (h : d.visible platforms = .ok ds) :
    (d.accessed platforms).listed.isSome = (d.listed.isSome ||
      (t.asks d.listed.isSome != 0 && (d.filter.devices platforms).isOk)) := by
  rw [listed_accessed h, asks_of_accesses haccesses]
  rcases visible_ok h with hlisted | ⟨hlisted, hdevices⟩
  · simp [hlisted]
  · simp [hlisted, hdevices, Except.isOk, Except.toBool]

/-- The devices are listed as soon as an enumeration has succeeded. -/
theorem listed (h : Turn platforms d t after r) :
    after.listed.isSome = (d.listed.isSome ||
      (t.asks d.listed.isSome != 0 && (d.filter.devices platforms).isOk)) := by
  cases h with
  | idle hrefresh haccesses => cases t <;> simp_all [Step.asks]
  | refreshed hdevices =>
      rw [Directory.enumerated, hdevices]
      simp [Step.asks, Except.isOk, Except.toBool]
  | seen haccesses hvisible => exact listed_of_visible haccesses hvisible
  | @selected v _ _ _ hvisible => exact listed_of_visible (t := .select v) rfl hvisible
  | failed hdevices => simp [hdevices, Except.isOk, Except.toBool]

theorem visible_of_ok {a : Answer} (h : Turn platforms d t after (.ok a))
    (haccesses : t.accesses = true) : ∃ ds, d.visible platforms = .ok ds := by
  cases h with
  | idle _ hidle => cases haccesses.symm.trans hidle
  | refreshed => cases haccesses
  | seen _ hvisible => exact ⟨_, hvisible⟩
  | selected hvisible => exact ⟨_, hvisible⟩

/-- Looking at the devices asks for the platforms only if they cannot be listed otherwise. -/
theorem visible_of_asks {ds : List Device} (haccesses : t.accesses = true)
    (hasks : t.asks d.listed.isSome = 1) (h : d.visible platforms = .ok ds) :
    d.filter.devices platforms = .ok ds := by
  rw [asks_of_accesses haccesses] at hasks
  rcases visible_ok h with hlisted | ⟨_, hdevices⟩
  · rw [hlisted] at hasks
    cases hasks
  · exact hdevices

/-- An enumeration that fails changes neither the list nor the selection. -/
theorem unchanged_of_enumeration {e : Failure} (h : Turn platforms d t after r)
    (hasks : t.asks d.listed.isSome = 1) (hdevices : d.filter.devices platforms = .error e) :
    r = .error (.failed e) ∧ after.listed = d.listed ∧ after.selected = d.selected := by
  cases h with
  | idle hrefresh haccesses => cases t <;> simp_all [Step.asks]
  | refreshed hok => cases hok.symm.trans hdevices
  | seen haccesses hvisible =>
      cases (visible_of_asks haccesses hasks hvisible).symm.trans hdevices
  | selected hvisible => cases (visible_of_asks rfl hasks hvisible).symm.trans hdevices
  | failed hfailed =>
      cases hfailed.symm.trans hdevices
      exact ⟨rfl, rfl, rfl⟩

/-- Once the devices are listed, a failure changes neither the list nor the selection. -/
theorem unchanged_of_error {e : StepFailure} (h : Turn platforms d t after (.error e))
    (hlisted : d.listed.isSome) : after.listed = d.listed ∧ after.selected = d.selected := by
  cases h with
  | idle => exact ⟨rfl, rfl⟩
  | seen =>
      obtain ⟨ds, hds⟩ := Option.isSome_iff_exists.mp hlisted
      rw [accessed_of_listed hds]
      exact ⟨rfl, rfl⟩
  | failed => exact ⟨rfl, rfl⟩

end Turn

theorem step_enumerations {t : Step} (ht : t.OnDirectory) (s : Session) :
    (s.step t).2.enumerations = t.asks s.directory.listed.isSome := by
  have hreport : (s.step t).2.enumerations =
      (s.step t).1.directory.enumerations - s.directory.enumerations := rfl
  rw [hreport, (step_turn ht s).enumerations]
  omega

theorem run_orderly {steps : List Step} (hsteps : ∀ t ∈ steps, t.OnDirectory) {s : Session}
    (hs : s.directory.Orderly) :
    (s.run steps).directory.Orderly ∧
      (s.run steps).directory.listed.isSome =
        (s.directory.listed.isSome || s.enumerated steps) := by
  induction steps generalizing s with
  | nil => exact ⟨hs, (Bool.or_false _).symm⟩
  | cons t rest ih =>
      obtain ⟨ht, hrest⟩ := List.forall_mem_cons.mp hsteps
      have hturn := step_turn ht s
      obtain ⟨horderly, hlisted⟩ := ih hrest (hturn.orderly hs)
      refine ⟨horderly, ?_⟩
      calc (s.run (t :: rest)).directory.listed.isSome
          = ((s.step t).1.directory.listed.isSome || (s.step t).1.enumerated rest) := hlisted
        _ = (s.directory.listed.isSome || s.enumerated (t :: rest)) := by
          rw [hturn.listed, Bool.or_assoc, enumerated, step_enumerations ht]

/-- The state machine properties of a directory after some steps. Whether an enumeration has
succeeded by then is told from the steps, not from the directory. -/
structure Settled (s : Session) (enumerated : Bool) : Prop where
  positions : ∀ ds, (s.step .devices).2.outcome = .ok (.devices ds) →
    ∀ (i : Nat) device, ds[i]? = some device → device.index = i
  /-- The current device is none or one of the devices, and is the selected one. -/
  current : ∀ ds, (s.step .devices).2.outcome = .ok (.devices ds) →
    ∃ device, (s.step .current).2.outcome = .ok (.device device) ∧
      (∀ d, device = some d → d ∈ ds) ∧
      device.map (·.index) = (s.step .current).1.directory.selection
  refresh : ∀ ds, s.directory.filter.devices s.platforms = .ok ds →
    (s.step .refresh).2.outcome = .ok .done ∧
      (s.step .refresh).1.directory.listed = some ds ∧
      (s.step .refresh).1.directory.selection = kept s.directory.selection ds.length ∧
      ((s.step .refresh).1.directory.selected = none ↔ ds = [])
  select : ∀ v, (Step.select v).OnDirectory →
    ((∃ device, (s.step (.select v)).2.outcome = .ok (.device device)) ↔
      ∃ ds, (s.step .devices).2.outcome = .ok (.devices ds) ∧ Selectable v ds.length)
  selected : ∀ v ds, (Step.select v).OnDirectory →
    (s.step .devices).2.outcome = .ok (.devices ds) → Selectable v ds.length →
      (s.step (.select v)).2.outcome = .ok (.device (v.whole?.bind fun n => ds[n.toNat]?)) ∧
        (s.step (.select v)).1.directory.selection = v.whole?
  refused : ∀ v ds, (Step.select v).OnDirectory →
    (s.step .devices).2.outcome = .ok (.devices ds) → ¬ Selectable v ds.length →
      (s.step (.select v)).2.outcome = .error (.failed (.kernel (.deviceIndex v ds.length)))
  /-- An enumeration that fails leaves everything as it was. -/
  enumerationFails : ∀ t e, t.OnDirectory → t.asks enumerated = 1 →
    s.directory.filter.devices s.platforms = .error e →
      (s.step t).2.outcome = .error (.failed e) ∧
        (s.step t).1.directory.listed = s.directory.listed ∧
        (s.step t).1.directory.selected = s.directory.selected
  /-- So does any failure once the devices have been enumerated. -/
  fails : ∀ t e, t.OnDirectory → enumerated = true → (s.step t).2.outcome = .error e →
    (s.step t).1.directory.listed = s.directory.listed ∧
      (s.step t).1.directory.selected = s.directory.selected
  asked : ∀ t, t.OnDirectory → (s.step t).2.enumerations = t.asks enumerated

section Answers

variable {s : Session}

theorem devices_answer {ds : List Device} :
    (s.step .devices).2.outcome = .ok (.devices ds) ↔
      s.directory.visible s.platforms = .ok ds := by
  rw [step_ask (f := .devices) rfl s (perform_devices _ _)]
  cases s.directory.visible s.platforms with
  | error e => simp [Except.map, Except.mapError]
  | ok ds' => simp [Except.map, Except.mapError]

theorem current_answer (hs : s.directory.Orderly) {ds : List Device}
    (hvisible : s.directory.visible s.platforms = .ok ds) :
    ∃ device, (s.step .current).2.outcome = .ok (.device device) ∧
      (∀ d, device = some d → d ∈ ds) ∧
      device.map (·.index) = (s.step .current).1.directory.selection := by
  have horderly := hs.accessed s.platforms
  have hlisted := listed_accessed hvisible
  have hcurrent := perform_current s.platforms s.directory
  rw [hvisible] at hcurrent
  rw [step_ask (f := .device) rfl s hcurrent]
  simp only [Directory.selection]
  cases hselected : (s.directory.accessed s.platforms).selected with
  | none =>
      refine ⟨none, rfl, ?_, rfl⟩
      intro d hd
      cases hd
  | some v =>
      obtain ⟨device, hitem, hmem, hwhole⟩ := horderly.selected_device hlisted hselected
      refine ⟨some device, ?_, ?_, hwhole.symm⟩
      · change (((v.position >>= itemAt ds).map some).map Answer.device).mapError
          StepFailure.failed = _
        rw [hitem]
        rfl
      · intro d hd
        cases hd
        exact hmem

theorem refresh_answer (hs : s.directory.Orderly) {ds : List Device}
    (hdevices : s.directory.filter.devices s.platforms = .ok ds) :
    (s.step .refresh).2.outcome = .ok .done ∧
      (s.step .refresh).1.directory.listed = some ds ∧
      (s.step .refresh).1.directory.selection = kept s.directory.selection ds.length ∧
      ((s.step .refresh).1.directory.selected = none ↔ ds = []) := by
  have hrefresh := perform_refresh s.platforms s.directory
  have hselection := hs.reselected_whole ds.length
  have hnone := (hs.enumerated s.platforms).selection_eq_none
  rw [Directory.enumerated, hdevices] at hrefresh hnone
  rw [step_ask (f := fun _ => .done) rfl s hrefresh]
  refine ⟨rfl, rfl, hselection, hnone.symm.trans ?_⟩
  rw [Directory.selection, hselection, hs.kept_eq_none, List.length_eq_zero_iff]

theorem select_answer {v : Value} {ds : List Device}
    (hvisible : s.directory.visible s.platforms = .ok ds) (hselectable : Selectable v ds.length) :
    (s.step (.select v)).2.outcome = .ok (.device (v.whole?.bind fun n => ds[n.toNat]?)) ∧
      (s.step (.select v)).1.directory.selection = v.whole? := by
  rcases hselectable with rfl | ⟨n, hwhole, hvalid⟩
  · have hselect := perform_select_absent s.platforms s.directory
    rw [hvisible] at hselect
    rw [step_ask (f := .device) rfl s hselect]
    exact ⟨rfl, rfl⟩
  · have hselect := perform_select_whole s.platforms s.directory hwhole
    simp only [hvisible, if_pos hvalid] at hselect
    rw [step_ask (f := .device) rfl s hselect, hwhole]
    exact ⟨rfl, hwhole⟩

theorem select_refusal {v : Value} (hv : (Step.select v).OnDirectory) {ds : List Device}
    (hvisible : s.directory.visible s.platforms = .ok ds)
    (hselectable : ¬ Selectable v ds.length) :
    (s.step (.select v)).2.outcome =
      .error (.failed (.kernel (.deviceIndex v ds.length))) := by
  cases hv with
  | deselect => exact absurd (.inl rfl) hselectable
  | @select _ n hwhole =>
      have hinvalid : ¬ (0 ≤ n ∧ n < ds.length) := by
        intro hvalid
        exact hselectable (.inr ⟨n, hwhole, hvalid⟩)
      have hselect := perform_select_whole s.platforms s.directory hwhole
      simp only [hvisible, if_neg hinvalid] at hselect
      rw [step_ask (f := .device) rfl s hselect]
      rfl

end Answers

/-- The properties hold after any directory steps from a new directory on, with any platform
sources, failing ones included, in between. -/
theorem run_settled {s : Session} {filter : Filter} (hs : s.directory = .initial filter)
    {steps : List Step} (hsteps : ∀ t ∈ steps, t.OnDirectory) :
    (s.run steps).Settled (s.enumerated steps) := by
  obtain ⟨horderly, hlisted⟩ := run_orderly hsteps (hs ▸ initial_orderly filter)
  rw [hs] at hlisted
  change _ = s.enumerated steps at hlisted
  rw [← hlisted]
  exact {
    positions := by
      intro ds hds
      have hvisible := devices_answer.mp hds
      exact (horderly.accessed _).positions ds (listed_accessed hvisible)
    current := fun ds hds => current_answer horderly (devices_answer.mp hds)
    refresh := fun ds hds => refresh_answer horderly hds
    select := by
      intro v hv
      constructor
      · rintro ⟨device, hdevice⟩
        have hturn := step_turn hv (s.run steps)
        rw [hdevice] at hturn
        obtain ⟨ds, hvisible⟩ := hturn.visible_of_ok rfl
        refine ⟨ds, devices_answer.mpr hvisible, ?_⟩
        by_contra hselectable
        rw [select_refusal hv hvisible hselectable] at hdevice
        cases hdevice
      · rintro ⟨ds, hds, hselectable⟩
        exact ⟨_, (select_answer (devices_answer.mp hds) hselectable).1⟩
    selected := fun v ds hv hds => select_answer (devices_answer.mp hds)
    refused := fun v ds hv hds => select_refusal hv (devices_answer.mp hds)
    enumerationFails := fun t e ht hasks =>
      (step_turn ht _).unchanged_of_enumeration hasks
    fails := by
      intro t e ht henumerated he
      have hturn := step_turn ht (s.run steps)
      rw [he] at hturn
      exact hturn.unchanged_of_error henumerated
    asked := fun t ht => step_enumerations ht _ }

/-- A platform with devices of some names. -/
def samplePlatform (names : List String) : Platform :=
  ⟨"P", names.map fun name => ⟨name, "", 4, 256, [256], 0, 0, 8, 1000, true, "", "", "", ""⟩⟩

/-- Two devices; of the masks the second is not a pattern, and is read only for names
without an `a`. -/
def sampleSession : Session where
  platforms := .ok [samplePlatform ["a1", "a2"]]
  directory := .initial { includeDevices := [.text "a", .text "["] }
  backend := .loopback

/-- The second device is selected; then the platform source raises, and later it lists another
device, whose name cannot be matched. So both refreshes fail. -/
def sampleSteps : List Step :=
  [.select (.int 1), .platforms (.error .notImplemented), .refresh,
    .platforms (.ok [samplePlatform ["b"]]), .refresh]

theorem sample_settled :
    sampleSession.directory = .initial { includeDevices := [.text "a", .text "["] } ∧
    (∀ t ∈ sampleSteps, t.OnDirectory) ∧
    (sampleSession.run sampleSteps).Settled true ∧
    (sampleSession.run sampleSteps).directory.selection = some 1 ∧
    (sampleSession.run sampleSteps).directory.enumerations = 3 := by
  have hsteps : ∀ t ∈ sampleSteps, t.OnDirectory := by
    simp only [sampleSteps, List.forall_mem_cons]
    exact ⟨.select rfl, .platforms _, .refresh, .platforms _, .refresh, nofun⟩
  have henumerated : sampleSession.enumerated sampleSteps = true := by decide +kernel
  refine ⟨rfl, hsteps, ?_, by decide +kernel, by decide +kernel⟩
  rw [← henumerated]
  exact run_settled rfl hsteps

end Session

end KernelLaunch
