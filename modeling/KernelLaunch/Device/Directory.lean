import KernelLaunch.Device.Filter
import KernelLaunch.Host.Component

/-!
The device directory: a cached enumeration of devices and the index of the selected one. The
platform source is called on first access and by each refresh.
-/

namespace KernelLaunch.Device

open Host

structure Directory where
  filter : Filter
  /-- The devices of the last enumeration that succeeded. -/
  listed : Option (List Device)
  /-- The value last passed to a successful range check of `select`, or the index chosen by an
  enumeration. -/
  selected : Option Value
  /-- How often the platform source has been called. -/
  enumerations : Nat

namespace Directory

/-- A directory before its first enumeration. -/
def initial (filter : Filter) : Directory := ⟨filter, none, none, 0⟩

/-- An operation on a directory. What it has changed before a failure stays. -/
abbrev Query := ExceptT Failure (StateM Directory)

/-- Whether a selection is still valid among a number of devices. -/
def isValid (selection : Value) (count : Nat) : Bool :=
  match selection.compareInt count with
  | .ok (some .lt) => true
  | _ => false

/-- The selection after an enumeration: the same if it is still valid, else the
first device. -/
def reselected (selected : Option Value) (count : Nat) : Option Value :=
  let first : Option Value := if 0 < count then some (.int 0) else none
  match selected with
  | some v => if isValid v count then some v else first
  | none => first

/-- Enumerates the devices again. If the source raises or a mask is invalid, the cached list
and the selection stay. -/
def refresh (platforms : Platforms) : Query Unit := do
  modify fun d => { d with enumerations := d.enumerations + 1 }
  let devices ← (← get).filter.devices platforms
  modify fun d =>
    { d with listed := some devices, selected := reselected d.selected devices.length }

/-- The cached device list, enumerated on first access. -/
def devices (platforms : Platforms) : Query (List Device) := do
  match (← get).listed with
  | some devices => return devices
  | none =>
      refresh platforms
      return (← get).listed.getD []

/-- The device at a position; negative positions count from the end. -/
def item (platforms : Platforms) (position : Value) : Query Device := do
  let devices ← devices platforms
  itemAt devices (← position.position)

/-- The selected device, if one is selected. -/
def current (platforms : Platforms) : Query (Option Device) := do
  let devices ← devices platforms
  match (← get).selected with
  | none => return none
  | some v => return some (← itemAt devices (← v.position))

/-- The device at a position from zero on. -/
def available (platforms : Platforms) (index : Value) : Query Device := do
  let devices ← devices platforms
  if ← index.isBelow devices.length then itemAt devices (← index.position)
  else throw (.kernel (.deviceIndex index devices.length))

/-- Selects the device at a position, or none. -/
def select (platforms : Platforms) (index : Value) : Query (Option Device) := do
  let devices ← devices platforms
  match index with
  | .atom .absent =>
      modify fun d => { d with selected := none }
      return none
  | _ =>
      if ← index.isBelow devices.length then
        modify fun d => { d with selected := some index }
        return some (← itemAt devices (← index.position))
      else throw (.kernel (.deviceIndex index devices.length))

inductive Counted where
  | all
  | kind (k : Kind)

def Counted.ofValue : Value → Except Failure Counted
  | .atom (.text name) =>
      if name = "all" then .ok .all
      else match Kind.ofName? name with
        | some k => .ok (.kind k)
        | none => .error (.unknownDeviceType (Text.quoted name))
  | .atom a => .error (.unknownDeviceType a.exact)
  | _ => .error .wrongKind

def Counted.includes (counted : Counted) (d : Device) : Bool :=
  match counted with
  | .all => true
  | .kind k => d.kinds.contains k

/-- The indices of the devices of a kind, or of all devices. -/
def count (platforms : Platforms) (kind : Value) : Query (List Int) := do
  let counted ← Counted.ofValue kind
  let devices ← devices platforms
  return (devices.filter counted.includes).map (·.index)

end Directory

end KernelLaunch.Device
