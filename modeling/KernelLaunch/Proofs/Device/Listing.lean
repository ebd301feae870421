import Mathlib.Data.Int.Bitwise
import KernelLaunch.Proofs.Device.Selection

/-!
Device enumeration against its filter specification. Given a search predicate for masks, the
enumerated devices are specified without any walk: on each platform that passes the platform
masks, the devices that pass the device masks, or only the first one of each name. The main
statement is that the directory lists exactly these, numbers them, counts them by type, and
selects them by index.
-/

namespace KernelLaunch

open Host Device Steps Text

namespace Device

/-- Whether a name is chosen by masks, with a search for a mask in a name. -/
def chosen (search : Value → String → Bool) (includes excludes : List Value)
    (name : String) : Bool :=
  (includes.isEmpty || includes.any (search · name)) && !excludes.any (search · name)

/-- The devices that are the first of their names, also after those before the list. -/
def firstsAfter (before devices : List Native) : List Native :=
  (devices.zipIdx.filter fun (d, i) =>
    (before ++ devices.take i).all (·.name != d.name)).map Prod.fst

/-- Whether a mask is a pattern. -/
def IsPattern (mask : Value) : Prop :=
  ∃ text, mask = .atom (.text text) ∧ (Mask.ofText? text.toList).isSome

/-- Whether a mask is a pattern that occurs in a name. -/
def found (mask : Value) (name : String) : Bool := (occurs mask name).toOption.getD false

namespace Filter

def masks (f : Filter) : List Value :=
  f.includeDevices ++ f.excludeDevices ++ f.includePlatforms ++ f.excludePlatforms

/-- All masks can be searched for, in whatever name, and the search is the given one. -/
def Searches (f : Filter) (search : Value → String → Bool) : Prop :=
  ∀ mask ∈ f.masks, ∀ name, occurs mask name = .ok (search mask name)

/-- The devices of a platform that a directory lists. -/
def listedOn (f : Filter) (search : Value → String → Bool) (p : Platform) : List Native :=
  let devices := p.devices.filter fun d =>
    chosen search f.includeDevices f.excludeDevices d.name
  if chosen search f.includePlatforms f.excludePlatforms p.name then
    if f.duplicates then devices else firstsAfter [] devices
  else []

/-- The specified enumeration: the accepted devices in platform order, numbered from zero. -/
def specified (f : Filter) (search : Value → String → Bool) (platforms : List Platform) :
    List Device :=
  (platforms.flatMap fun p => (f.listedOn search p).map (p.name, ·)).mapIdx
    fun i (platform, native) => ⟨i, platform, native⟩

end Filter

section Masks

variable {search : Value → String → Bool} {name : String}

theorem someOccurs_eq {masks : List Value}
    (h : ∀ mask ∈ masks, ∀ name, occurs mask name = .ok (search mask name)) :
    someOccurs name masks = .ok (masks.any (search · name)) := by
  induction masks with
  | nil => rfl
  | cons mask rest ih =>
      obtain ⟨hmask, hrest⟩ := List.forall_mem_cons.mp h
      simp only [someOccurs, hmask name, ih hrest, List.any_cons, bind, Except.bind]
      cases search mask name <;> rfl

theorem passes_eq {includes excludes : List Value}
    (hincludes : ∀ mask ∈ includes, ∀ name, occurs mask name = .ok (search mask name))
    (hexcludes : ∀ mask ∈ excludes, ∀ name, occurs mask name = .ok (search mask name)) :
    passes name includes excludes = .ok (chosen search includes excludes name) := by
  simp only [passes, chosen, someOccurs_eq hincludes, someOccurs_eq hexcludes, bind, Except.bind]
  cases includes.isEmpty || includes.any (search · name) <;> rfl

theorem occurs_of_isPattern {mask : Value} (h : IsPattern mask) (name : String) :
    occurs mask name = .ok (found mask name) := by
  obtain ⟨text, rfl, hsome⟩ := h
  obtain ⟨m, hm⟩ := Option.isSome_iff_exists.mp hsome
  simp only [found, occurs, hm]
  rfl

/-- Only the masks matter, not the names: patterns can be searched for in all of them. -/
theorem Filter.searches_of_isPattern {f : Filter} (h : ∀ mask ∈ f.masks, IsPattern mask) :
    f.Searches found := by
  intro mask hmask name
  exact occurs_of_isPattern (h mask hmask) name

end Masks

theorem firstsAfter_cons (before : List Native) (d : Native) (rest : List Native) :
    firstsAfter before (d :: rest) =
      if before.all (·.name != d.name) then d :: firstsAfter (before ++ [d]) rest
      else firstsAfter (before ++ [d]) rest := by
  have hrest : (((rest.zipIdx.map (Prod.map id (· + 1))).filter fun (e, i) =>
      (before ++ (d :: rest).take i).all (·.name != e.name)).map Prod.fst) =
        firstsAfter (before ++ [d]) rest := by
    rw [List.filter_map, List.map_map]
    simp only [firstsAfter, List.append_assoc]
    rfl
  rw [firstsAfter, List.zipIdx_cons', List.filter_cons, ← hrest]
  simp only [List.take_zero, List.append_nil]
  split <;> rfl

namespace Filter

variable {f : Filter} {search : Value → String → Bool}

theorem Searches.device (h : f.Searches search) (name : String) :
    passes name f.includeDevices f.excludeDevices =
      .ok (chosen search f.includeDevices f.excludeDevices name) := by
  apply passes_eq
  · intro mask hmask
    exact h mask (by simp [masks, hmask])
  · intro mask hmask
    exact h mask (by simp [masks, hmask])

theorem Searches.platform (h : f.Searches search) (name : String) :
    passes name f.includePlatforms f.excludePlatforms =
      .ok (chosen search f.includePlatforms f.excludePlatforms name) := by
  apply passes_eq
  · intro mask hmask
    exact h mask (by simp [masks, hmask])
  · intro mask hmask
    exact h mask (by simp [masks, hmask])

/-- With duplicates, the names that have been seen do not matter. -/
theorem accepted_all (h : f.Searches search) (hduplicates : f.duplicates = true)
    (seen : List String) (devices : List Native) :
    f.accepted seen devices = .ok (devices.filter fun d =>
      chosen search f.includeDevices f.excludeDevices d.name) := by
  induction devices generalizing seen with
  | nil => rfl
  | cons d rest ih =>
      simp only [accepted, h.device, hduplicates, ih, List.filter_cons, bind, Except.bind]
      cases chosen search f.includeDevices f.excludeDevices d.name <;> rfl

/-- Without them, the names that have been seen are those of the devices before. -/
theorem accepted_first (h : f.Searches search) (hduplicates : f.duplicates = false)
    {before : List Native} {seen : List String}
    (hseen : ∀ name, name ∈ seen ↔ ∃ e ∈ before, e.name = name) (devices : List Native) :
    f.accepted seen devices = .ok (firstsAfter before (devices.filter fun d =>
      chosen search f.includeDevices f.excludeDevices d.name)) := by
  induction devices generalizing before seen with
  | nil => rfl
  | cons d rest ih =>
      simp only [accepted, h.device, hduplicates, List.filter_cons, bind, Except.bind]
      cases chosen search f.includeDevices f.excludeDevices d.name with
      | false => exact ih hseen
      | true =>
          simp only [firstsAfter_cons, Bool.not_true, Bool.not_false, Bool.true_and, if_true]
          by_cases hname : d.name ∈ seen
          · have hthen : ∀ name, name ∈ seen ↔ ∃ e ∈ before ++ [d], e.name = name := by
              intro name
              constructor
              · intro hold
                obtain ⟨e, he, rfl⟩ := (hseen name).mp hold
                exact ⟨e, List.mem_append_left _ he, rfl⟩
              · rintro ⟨e, he, rfl⟩
                rcases List.mem_append.mp he with hold | hnew
                · exact (hseen _).mpr ⟨e, hold, rfl⟩
                · exact List.mem_singleton.mp hnew ▸ hname
            have hfirst : ¬ before.all (·.name != d.name) = true := by
              simpa using (hseen d.name).mp hname
            simp only [List.contains_iff_mem.mpr hname, if_neg hfirst, if_true]
            exact ih hthen
          · have hthen : ∀ name, name ∈ d.name :: seen ↔ ∃ e ∈ before ++ [d], e.name = name := by
              intro name
              simp [hseen, or_comm, eq_comm]
            have hfirst : before.all (·.name != d.name) = true := by
              simpa using fun e he heq => hname ((hseen d.name).mpr ⟨e, he, heq⟩)
            have hcontains : seen.contains d.name = false := by simpa using hname
            simp only [hcontains, if_pos hfirst, ih hthen]
            rfl

theorem accepted_eq (h : f.Searches search) {p : Platform}
    (hplatform : chosen search f.includePlatforms f.excludePlatforms p.name = true) :
    f.accepted [] p.devices = .ok (f.listedOn search p) := by
  unfold listedOn
  rw [if_pos hplatform]
  cases hduplicates : f.duplicates with
  | true => exact accepted_all h hduplicates [] p.devices
  | false => exact accepted_first h hduplicates (by simp) p.devices

theorem acceptedOn_eq (h : f.Searches search) (platforms : List Platform) :
    f.acceptedOn platforms =
      .ok (platforms.flatMap fun p => (f.listedOn search p).map (p.name, ·)) := by
  induction platforms with
  | nil => rfl
  | cons p rest ih =>
      simp only [acceptedOn, h.platform, ih, bind, Except.bind, List.flatMap_cons]
      cases hplatform : chosen search f.includePlatforms f.excludePlatforms p.name with
      | false => simp [listedOn, hplatform, pure, Except.pure]
      | true => simp [accepted_eq h hplatform, pure, Except.pure]

/-- The walk over the platforms and their devices lists what is specified. -/
theorem devices_eq (h : f.Searches search) (platforms : List Platform) :
    f.devices platforms = .ok (f.specified search platforms) := by
  simp only [Filter.devices, bind, Except.bind, acceptedOn_eq h]
  rfl

end Filter

theorem div_pow_mod_two (bits : Int) (n : Nat) :
    bits / 2 ^ n % 2 = 1 ↔ bits.testBit n = true := by
  cases bits with
  | ofNat m =>
      have hcast : ((m : Int) / 2 ^ n % 2 = 1) ↔ m / 2 ^ n % 2 = 1 := by norm_cast
      rw [Int.testBit, Nat.testBit_eq_decide_div_mod_eq, decide_eq_true_iff]
      exact hcast
  | negSucc m =>
      have hcast : (m : Int).ediv (2 ^ n) = ((m / 2 ^ n : Nat) : Int) := by norm_cast
      rw [Int.testBit, Nat.testBit_eq_decide_div_mod_eq,
        Int.negSucc_ediv m (Int.pow_pos (by decide)), hcast, Bool.not_eq_true',
        decide_eq_false_iff_not]
      omega

theorem Kind.mem_ofBits (k : Kind) (bits : Int) : k ∈ ofBits bits ↔ bits.testBit k.bit := by
  have hall : k ∈ all := by cases k <;> decide
  rw [ofBits, List.mem_filter, beq_iff_eq, div_pow_mod_two]
  exact and_iff_right hall

namespace Directory

namespace Counted

/-- What devices are counted by: `all`, or the name of a kind. -/
def value : Counted → Value
  | all => .atom (.text "all")
  | kind k => .atom (.text k.name)

/-- Whether a device is counted: with `all` each one, else by the bit of the kind. -/
def holds (counted : Counted) (d : Device) : Bool :=
  match counted with
  | all => true
  | kind k => d.native.kindBits.testBit k.bit

theorem includes_eq_holds (counted : Counted) : counted.includes = counted.holds := by
  funext d
  cases counted with
  | all => rfl
  | kind k =>
      rw [Bool.eq_iff_iff]
      exact List.contains_iff_mem.trans (Kind.mem_ofBits k d.native.kindBits)

theorem ofValue_value (counted : Counted) : Counted.ofValue counted.value = .ok counted := by
  cases counted with
  | all => rfl
  | kind k => cases k <;> rfl

theorem eq_value_of_ofValue {v : Value} {counted : Counted}
    (h : Counted.ofValue v = .ok counted) : v = counted.value := by
  unfold Counted.ofValue at h
  split at h
  · next name =>
    split at h
    · next hname =>
      cases h
      rw [hname]
      rfl
    · split at h
      · next k hk =>
        cases h
        unfold Kind.ofName? at hk
        have hname : k.name = name := by simpa using List.find?_some hk
        rw [← hname]
        rfl
      · cases h
  · cases h
  · cases h

end Counted

/-- A directory shows a device list through all of its queries: the list itself, indices,
counts by type, selection and the current device. -/
structure Shows (platforms : Platforms) (d : Directory) (ds : List Device) : Prop where
  devices : (perform (devices platforms) d).1 = .ok ds
  indices : ∀ (i : Nat) device, ds[i]? = some device → device.index = i
  /-- Only `all` and the names of the kinds can be counted by. -/
  accepted : ∀ v, (∃ positions, (perform (count platforms v) d).1 = .ok positions) ↔
    ∃ counted : Counted, v = counted.value
  count : ∀ counted : Counted, ∃ positions : List Int,
    (perform (count platforms counted.value) d).1 = .ok positions ∧
      positions.length = ds.countP counted.holds ∧
      positions.Pairwise (· < ·) ∧
      ∀ n, n ∈ positions ↔ ∃ (i : Nat) (device : Device),
        n = i ∧ ds[i]? = some device ∧ counted.holds device
  /-- The device at each position can be selected by it, and is the current one then. -/
  select : ∀ (i : Nat) device, ds[i]? = some device →
    (perform (select platforms (.int i)) d).1 = .ok (some device) ∧
      (perform (current platforms) (perform (select platforms (.int i)) d).2).1 =
        .ok (some device)

section Shown

variable {platforms : Platforms} {d : Directory} {ds : List Device}

/-- Among devices that stand at their positions, any of them have increasing positions. -/
theorem positions_increase (h : ∀ (i : Nat) device, ds[i]? = some device → device.index = i)
    (p : Device → Bool) : ((ds.filter p).map (·.index)).Pairwise (· < ·) := by
  have hds : ds.Pairwise fun a b => a.index < b.index := by
    rw [List.pairwise_iff_getElem]
    intro i j hi hj hlt
    rw [h i _ (List.getElem?_eq_getElem hi), h j _ (List.getElem?_eq_getElem hj)]
    exact Int.ofNat_lt.mpr hlt
  exact List.pairwise_map.mpr (hds.sublist List.filter_sublist)

theorem mem_positions (h : ∀ (i : Nat) device, ds[i]? = some device → device.index = i)
    (p : Device → Bool) (n : Int) :
    n ∈ (ds.filter p).map (·.index) ↔
      ∃ (i : Nat) (device : Device), n = i ∧ ds[i]? = some device ∧ p device := by
  rw [List.mem_map]
  constructor
  · rintro ⟨device, hdevice, rfl⟩
    obtain ⟨hmem, hp⟩ := List.mem_filter.mp hdevice
    obtain ⟨i, hi⟩ := List.mem_iff_getElem?.mp hmem
    exact ⟨i, device, h i device hi, hi, hp⟩
  · rintro ⟨i, device, rfl, hi, hp⟩
    exact ⟨device, List.mem_filter.mpr ⟨List.mem_of_getElem? hi, hp⟩, h i device hi⟩

theorem select_at (hvisible : d.visible platforms = .ok ds) {i : Nat} {device : Device}
    (hi : ds[i]? = some device) :
    (perform (select platforms (.int i)) d).1 = .ok (some device) ∧
      (perform (current platforms) (perform (select platforms (.int i)) d).2).1 =
        .ok (some device) := by
  have hvalid : 0 ≤ (i : Int) ∧ (i : Int) < ds.length := by
    obtain ⟨hlt, _⟩ := List.getElem?_eq_some_iff.mp hi
    omega
  have hselect : perform (select platforms (.int i)) d =
      (.ok (some device), { d.accessed platforms with selected := some (.int i) }) := by
    rw [perform_select_whole platforms d (n := i) rfl, hvisible]
    simp only [if_pos hvalid, Int.toNat_natCast, hi]
  have hlisted : ({ d.accessed platforms with selected := some (.int i) } : Directory).listed =
      some ds := listed_accessed hvisible
  have hitem : itemAt ds i = .ok device := by
    obtain ⟨item, hitem, hat⟩ := itemAt_of_lt hvalid.1 hvalid.2
    cases hat.symm.trans hi
    exact hitem
  rw [hselect]
  refine ⟨rfl, ?_⟩
  rw [perform_current, visible, hlisted, accessed_of_listed hlisted]
  change ((itemAt ds i).map some) = _
  rw [hitem]
  rfl

/-- A directory shows the devices that an access sees. -/
theorem shows_of_visible (hvisible : d.visible platforms = .ok ds)
    (hindices : ∀ (i : Nat) device, ds[i]? = some device → device.index = i) :
    Shows platforms d ds where
  devices := by rw [perform_devices, hvisible]
  indices := hindices
  accepted := by
    intro v
    rw [perform_count]
    constructor
    · rintro ⟨positions, hpositions⟩
      cases hcounted : Counted.ofValue v with
      | ok counted => exact ⟨counted, Counted.eq_value_of_ofValue hcounted⟩
      | error e =>
          rw [hcounted] at hpositions
          cases hpositions
    · rintro ⟨counted, rfl⟩
      rw [counted.ofValue_value, hvisible]
      exact ⟨_, rfl⟩
  count := by
    intro counted
    refine ⟨(ds.filter counted.holds).map (·.index), ?_, ?_, ?_, ?_⟩
    · rw [← counted.includes_eq_holds, perform_count, counted.ofValue_value, hvisible]
      rfl
    · rw [List.length_map, List.countP_eq_length_filter]
    · exact positions_increase hindices counted.holds
    · exact mem_positions hindices counted.holds
  select := fun i device => select_at hvisible

end Shown

/-- For any valid masks and any platforms, the directory shows the specified enumeration at
its first access and after each refresh. -/
theorem specified_shown {d : Directory} {search : Value → String → Bool}
    (h : d.filter.Searches search) (platforms : List Platform) :
    (d.listed = none → Shows platforms d (d.filter.specified search platforms)) ∧
      (perform (refresh platforms) d).1 = .ok () ∧
      ∀ later, Shows later (perform (refresh platforms) d).2
        (d.filter.specified search platforms) := by
  have hdevices := Filter.devices_eq h platforms
  have hindices : ∀ (i : Nat) device, (d.filter.specified search platforms)[i]? = some device →
      device.index = i := by
    intro i device hi
    exact Filter.positions hdevices i hi
  refine ⟨?_, ?_, ?_⟩
  · intro hlisted
    apply shows_of_visible _ hindices
    simp only [visible, hlisted, hdevices]
  · rw [perform_refresh, hdevices]
    rfl
  · intro later
    apply shows_of_visible _ hindices
    rw [perform_refresh]
    simp only [visible, enumerated, hdevices]

/-- Devices of some names, each of them once on a platform. -/
def sampleFilter : Filter where
  includeDevices := [.atom (.text "G.U"), .atom (.text "^X")]
  excludePlatforms := [.atom (.text "Other")]
  duplicates := false

/-- Two platforms of one name, with devices of one name on each of them and on both. -/
def samplePlatforms : List Platform :=
  [Session.samplePlatform ["GPU", "GPU", "CPU"], Session.samplePlatform ["X", "GPU"]]

theorem sample_shown :
    sampleFilter.Searches found ∧ (initial sampleFilter).listed = none ∧
      Shows samplePlatforms (initial sampleFilter)
        (sampleFilter.specified found samplePlatforms) ∧
      (sampleFilter.specified found samplePlatforms).map (·.name) = ["GPU", "X", "GPU"] := by
  have hpatterns : ∀ mask ∈ sampleFilter.masks, IsPattern mask := by
    intro mask hmask
    simp only [sampleFilter, Filter.masks, List.append_nil, List.cons_append, List.nil_append,
      List.mem_cons, List.not_mem_nil, or_false] at hmask
    obtain rfl | rfl | rfl := hmask <;> exact ⟨_, rfl, by decide +kernel⟩
  have hsearches := Filter.searches_of_isPattern hpatterns
  have hshown := specified_shown (d := initial sampleFilter) hsearches samplePlatforms
  exact ⟨hsearches, rfl, hshown.1 rfl, by decide +kernel⟩

end Directory

end Device

end KernelLaunch
