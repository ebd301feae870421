import KernelLaunch.Device.Directory
import KernelLaunch.Proofs.Except

/-!
Equations for directory queries. Every query first accesses the device list, which is
enumerated if no enumeration has succeeded yet. So each query has one equation for its
answer and for the directory after it, in terms of the visible devices.
-/

namespace KernelLaunch

open Host Steps

namespace Host.Value

/-- The integer that a value is. Truth values are integers as well. -/
def whole? : Value → Option Int
  | .atom (.int n) => some n
  | .atom (.truth b) => some (cond b 1 0)
  | _ => none

variable {v : Value} {n : Int}

/-- What names a position compares with numbers as that position. -/
theorem compareInt_of_position (h : v.position = .ok n) (m : Int) :
    v.compareInt m = .ok (some (compare n m)) := by
  unfold position at h
  split at h
  · cases h
    rfl
  · cases h
    rfl
  · cases h
    rfl
  · next a =>
    split at h
    · next signed width b count htensor =>
      obtain ⟨tensor, columnMajor, readOnly⟩ := a
      dsimp only at htensor
      subst htensor
      cases h
      rfl
    · cases h
  · cases h

theorem position_of_whole (h : v.whole? = some n) : v.position = .ok n := by
  unfold whole? at h
  split at h
  · cases h
    rfl
  · cases h
    rfl
  · cases h

theorem compare_beq_lt (n m : Int) : (compare n m == .lt) = decide (n < m) := by
  rw [Bool.eq_iff_iff, beq_iff_eq, decide_eq_true_iff]
  exact Int.compare_eq_lt

theorem isBelow_of_position (h : v.position = .ok n) (limit : Int) :
    v.isBelow limit = .ok (decide (0 ≤ n ∧ n < limit)) := by
  simp only [isBelow, compareInt_of_position h, bind, Except.bind]
  cases hcompare : compare n 0 with
  | lt =>
      have hneg : n < 0 := Int.compare_eq_lt.mp hcompare
      simp [Int.not_le.mpr hneg]
  | eq =>
      have hzero : n = 0 := Int.compare_eq_eq.mp hcompare
      simp [hzero, compare_beq_lt]
  | gt =>
      have hpos : 0 < n := Int.compare_eq_gt.mp hcompare
      simp [Int.le_of_lt hpos, compare_beq_lt]

end Host.Value

/-- A position from zero on that is below the number of items holds one. -/
theorem Host.itemAt_of_lt {α : Type} {items : List α} {n : Int} (h : 0 ≤ n)
    (hlt : n < items.length) :
    ∃ item, itemAt items n = .ok item ∧ items[n.toNat]? = some item := by
  have hindex : n.toNat < items.length := by omega
  refine ⟨items[n.toNat], ?_, List.getElem?_eq_getElem hindex⟩
  simp [itemAt, Int.not_lt.mpr h, List.getElem?_eq_getElem hindex]

namespace Device.Directory

variable {α : Type}

theorem isValid_of_whole {v : Value} {n : Int} (h : v.whole? = some n) (count : Nat) :
    isValid v count = decide (n < count) := by
  simp only [isValid, Value.compareInt_of_position (Value.position_of_whole h)]
  rw [← Value.compare_beq_lt]
  cases compare n (count : Int) <;> rfl

/-- The devices that an access sees: the cached list, or else those of an enumeration. -/
def visible (platforms : Platforms) (d : Directory) : Except Failure (List Device) :=
  match d.listed with
  | some devices => .ok devices
  | none => d.filter.devices platforms

/-- A directory after an enumeration. A failed one only counts the call of the platform
source. -/
def enumerated (platforms : Platforms) (d : Directory) : Directory :=
  match d.filter.devices platforms with
  | .ok devices =>
      { d with
        listed := some devices
        selected := reselected d.selected devices.length
        enumerations := d.enumerations + 1 }
  | .error _ => { d with enumerations := d.enumerations + 1 }

/-- A directory after an access. -/
def accessed (platforms : Platforms) (d : Directory) : Directory :=
  if d.listed.isSome then d else d.enumerated platforms

theorem accessed_of_listed {platforms : Platforms} {d : Directory} {devices : List Device}
    (h : d.listed = some devices) : d.accessed platforms = d := by
  rw [accessed, h]
  rfl

theorem accessed_of_unlisted {platforms : Platforms} {d : Directory}
    (h : d.listed = none) : d.accessed platforms = d.enumerated platforms := by
  rw [accessed, h]
  rfl

theorem perform_refresh (platforms : Platforms) (d : Directory) :
    perform (refresh platforms) d =
      ((d.filter.devices platforms).map fun _ => (), d.enumerated platforms) := by
  simp only [refresh, perform_bind, perform_modify, perform_get, perform_lift, enumerated]
  cases d.filter.devices platforms <;> rfl

theorem perform_devices (platforms : Platforms) (d : Directory) :
    perform (devices platforms) d = (d.visible platforms, d.accessed platforms) := by
  simp only [devices, perform_bind, perform_get]
  cases hlisted : d.listed with
  | some devices => simp [visible, hlisted, accessed_of_listed hlisted]
  | none =>
      simp only [perform_bind, perform_refresh, visible, hlisted, accessed_of_unlisted hlisted]
      cases hdevices : d.filter.devices platforms with
      | error e => rfl
      | ok devices => simp [Except.map, enumerated, hdevices]

/-- A query looks at the devices before anything else. -/
theorem perform_looking (platforms : Platforms) (f : List Device → Query α) (d : Directory) :
    perform (devices platforms >>= f) d = match d.visible platforms with
      | .ok ds => perform (f ds) (d.accessed platforms)
      | .error e => (.error e, d.accessed platforms) := by
  rw [perform_bind, perform_devices]
  cases d.visible platforms <;> rfl

/-- An access fails only as an enumeration that has not been done before. -/
theorem visible_error {platforms : Platforms} {d : Directory} {e : Failure}
    (h : d.visible platforms = .error e) :
    d.listed = none ∧ d.filter.devices platforms = .error e := by
  unfold visible at h
  cases hlisted : d.listed with
  | some devices =>
      rw [hlisted] at h
      cases h
  | none =>
      rw [hlisted] at h
      exact ⟨rfl, h⟩

/-- An access succeeds if the devices are listed, or else as an enumeration. -/
theorem visible_ok {platforms : Platforms} {d : Directory} {ds : List Device}
    (h : d.visible platforms = .ok ds) :
    d.listed = some ds ∨ d.listed = none ∧ d.filter.devices platforms = .ok ds := by
  unfold visible at h
  cases hlisted : d.listed with
  | some devices =>
      rw [hlisted] at h
      cases h
      exact .inl rfl
  | none =>
      rw [hlisted] at h
      exact .inr ⟨rfl, h⟩

/-- What is listed after an access is what the access has seen. -/
theorem listed_accessed {platforms : Platforms} {d : Directory} {ds : List Device}
    (h : d.visible platforms = .ok ds) : (d.accessed platforms).listed = some ds := by
  rcases visible_ok h with hlisted | ⟨hlisted, hdevices⟩
  · rw [accessed_of_listed hlisted, hlisted]
  · rw [accessed_of_unlisted hlisted, enumerated, hdevices]

theorem enumerated_of_error {platforms : Platforms} {d : Directory} {e : Failure}
    (h : d.filter.devices platforms = .error e) :
    d.enumerated platforms = { d with enumerations := d.enumerations + 1 } := by
  rw [enumerated, h]

theorem enumerations_enumerated (platforms : Platforms) (d : Directory) :
    (d.enumerated platforms).enumerations = d.enumerations + 1 := by
  unfold enumerated
  cases d.filter.devices platforms <;> rfl

theorem enumerations_accessed (platforms : Platforms) (d : Directory) :
    (d.accessed platforms).enumerations = d.enumerations + cond d.listed.isSome 0 1 := by
  cases hlisted : d.listed with
  | some devices => rw [accessed_of_listed hlisted]; rfl
  | none => rw [accessed_of_unlisted hlisted, enumerations_enumerated]; rfl

theorem visible_accessed (platforms : Platforms) (d : Directory) :
    (d.accessed platforms).visible platforms = d.visible platforms := by
  cases hlisted : d.listed with
  | some devices => rw [accessed_of_listed hlisted]
  | none =>
      rw [accessed_of_unlisted hlisted]
      cases hdevices : d.filter.devices platforms <;> simp [visible, enumerated, hlisted, hdevices]

theorem perform_item (platforms : Platforms) (position : Value) (d : Directory) :
    perform (item platforms position) d =
      (d.visible platforms >>= fun ds => position.position >>= itemAt ds,
        d.accessed platforms) := by
  simp only [item, perform_looking]
  cases d.visible platforms with
  | error e => rfl
  | ok ds =>
      simp only [perform_bind, perform_lift]
      cases position.position <;> rfl

theorem perform_current (platforms : Platforms) (d : Directory) :
    perform (current platforms) d =
      (d.visible platforms >>= fun ds => match (d.accessed platforms).selected with
        | none => .ok none
        | some v => (v.position >>= itemAt ds).map some,
        d.accessed platforms) := by
  simp only [current, perform_looking]
  cases d.visible platforms with
  | error e => rfl
  | ok ds =>
      simp only [perform_bind, perform_get]
      cases (d.accessed platforms).selected with
      | none => rfl
      | some v =>
          simp only [perform_bind, perform_lift]
          cases v.position with
          | error e => rfl
          | ok n => cases hitem : itemAt ds n <;> simp [hitem, bind, Except.bind, Except.map]

theorem perform_select_absent (platforms : Platforms) (d : Directory) :
    perform (select platforms (.atom .absent)) d = match d.visible platforms with
      | .ok _ => (.ok none, { d.accessed platforms with selected := none })
      | .error e => (.error e, d.accessed platforms) := by
  simp only [select, perform_looking]
  cases d.visible platforms <;> rfl

theorem select_present (platforms : Platforms) {v : Value} (h : v ≠ .atom .absent) :
    select platforms v = devices platforms >>= (fun ds => do
      if ← v.isBelow ds.length then
        modify fun d => { d with selected := some v }
        return some (← itemAt ds (← v.position))
      else throw (.kernel (.deviceIndex v ds.length))) := by
  cases v with
  | atom a =>
      cases a with
      | absent => exact absurd rfl h
      | _ => rfl
  | array a => rfl
  | list items => rfl

/-- A value is selected as soon as it lies among the positions; only then the device at
its position is looked up. -/
theorem perform_select (platforms : Platforms) (d : Directory) {v : Value}
    (h : v ≠ .atom .absent) :
    perform (select platforms v) d = match d.visible platforms with
      | .ok ds =>
          match v.isBelow ds.length with
          | .ok true =>
              ((v.position >>= itemAt ds).map some,
                { d.accessed platforms with selected := some v })
          | .ok false => (.error (.kernel (.deviceIndex v ds.length)), d.accessed platforms)
          | .error e => (.error e, d.accessed platforms)
      | .error e => (.error e, d.accessed platforms) := by
  rw [select_present platforms h, perform_looking]
  cases d.visible platforms with
  | error e => rfl
  | ok ds =>
      simp only [perform_bind, perform_lift]
      cases v.isBelow ds.length with
      | error e => rfl
      | ok below =>
          cases below with
          | false => rfl
          | true =>
              simp only [if_true, perform_bind, perform_modify, perform_lift]
              cases v.position with
              | error e => rfl
              | ok n => cases hitem : itemAt ds n <;> simp [hitem, bind, Except.bind, Except.map]

/-- An integer selects the device at its position if there is one. -/
theorem perform_select_whole (platforms : Platforms) (d : Directory) {v : Value} {n : Int}
    (h : v.whole? = some n) :
    perform (select platforms v) d = match d.visible platforms with
      | .ok ds =>
          if 0 ≤ n ∧ n < ds.length then
            (.ok ds[n.toNat]?, { d.accessed platforms with selected := some v })
          else (.error (.kernel (.deviceIndex v ds.length)), d.accessed platforms)
      | .error e => (.error e, d.accessed platforms) := by
  have hposition := Value.position_of_whole h
  have hpresent : v ≠ .atom .absent := by
    rintro rfl
    cases h
  rw [perform_select platforms d hpresent]
  cases d.visible platforms with
  | error e => rfl
  | ok ds =>
      simp only [Value.isBelow_of_position hposition]
      by_cases hvalid : 0 ≤ n ∧ n < ds.length
      · obtain ⟨device, hitem, hdevice⟩ := itemAt_of_lt hvalid.1 hvalid.2
        rw [if_pos hvalid, hdevice, decide_eq_true hvalid, hposition]
        change (((itemAt ds n).map some), _) = _
        rw [hitem]
        rfl
      · rw [if_neg hvalid, decide_eq_false hvalid]

/-- An unknown kind is refused before the devices are looked at. -/
theorem perform_count (platforms : Platforms) (kind : Value) (d : Directory) :
    perform (count platforms kind) d = match Counted.ofValue kind with
      | .ok counted =>
          (d.visible platforms >>= fun ds => .ok ((ds.filter counted.includes).map (·.index)),
            d.accessed platforms)
      | .error e => (.error e, d) := by
  simp only [count, perform_bind, perform_lift]
  cases Counted.ofValue kind with
  | error e => rfl
  | ok counted =>
      simp only [perform_devices]
      cases d.visible platforms <;> rfl

end Device.Directory

end KernelLaunch
