import KernelLaunch.Device.Basic
import KernelLaunch.Text.Pattern.Parse

/-!
Enumeration of devices under include and exclude masks. A mask is a regular expression that
is searched for in the name of a platform or a device. A name passes if there are no include
masks or one of them matches, and no exclude mask matches. Masks are compiled when the
search gets to them, so an invalid mask fails only then.
-/

namespace KernelLaunch.Device

open Host Text

/-- Whether a mask occurs in a name. Only texts can be masks. -/
def occurs (mask : Value) (name : String) : Except Failure Bool :=
  match mask with
  | .atom (.text pattern) =>
      match Mask.ofText? pattern.toList with
      | some m => .ok (m.occursIn name)
      | none => .error .badPattern
  | _ => .error .wrongKind

/-- Whether one of several masks occurs in a name. -/
def someOccurs (name : String) : List Value → Except Failure Bool
  | [] => .ok false
  | mask :: rest => do if ← occurs mask name then .ok true else someOccurs name rest

def passes (name : String) (includes excludes : List Value) : Except Failure Bool := do
  if includes.isEmpty || (← someOccurs name includes) then
    .ok !(← someOccurs name excludes)
  else .ok false

/-- What a directory lists. -/
structure Filter where
  includeDevices : List Value := []
  excludeDevices : List Value := []
  includePlatforms : List Value := []
  excludePlatforms : List Value := []
  /-- Whether devices are listed that have the name of an earlier one on their
  platform. -/
  duplicates : Bool := true

namespace Filter

/-- The devices of a platform that are listed; `seen` holds the names of the
earlier ones. -/
def accepted (f : Filter) (seen : List String) : List Native → Except Failure (List Native)
  | [] => .ok []
  | d :: rest => do
      if !(← passes d.name f.includeDevices f.excludeDevices) then accepted f seen rest
      else if !f.duplicates && seen.contains d.name then accepted f seen rest
      else return d :: (← accepted f (d.name :: seen) rest)

/-- The listed devices of all platforms with the names of their platforms. -/
def acceptedOn (f : Filter) : List Platform → Except Failure (List (String × Native))
  | [] => .ok []
  | p :: rest => do
      let here ←
        if ← passes p.name f.includePlatforms f.excludePlatforms then accepted f [] p.devices
        else .ok []
      return here.map (p.name, ·) ++ (← acceptedOn f rest)

/-- The listed devices, each with its position. The source is called before any mask is
read. -/
def devices (f : Filter) (platforms : Platforms) : Except Failure (List Device) := do
  return (← acceptedOn f (← platforms)).mapIdx fun i (platform, native) => ⟨i, platform, native⟩

end Filter

end KernelLaunch.Device
