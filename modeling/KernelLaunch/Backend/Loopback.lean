import KernelLaunch.Backend.Basic
import KernelLaunch.Machine

/-!
The loopback backend, a test double without native objects. It answers a launch with the
arguments themselves, changed in place if the setup of the machine says so.
-/

namespace KernelLaunch.Backend

open Host

/-- An argument after a launch. An array that may be written is changed in
place, which it has to admit. -/
def Loopback.touched (effect : Tensor → Tensor) (arg : Value) (readOnly : Bool) :
    Except Failure Value :=
  match arg with
  | .array a =>
      if readOnly then .ok arg
      else if a.readOnly then .error .badValue
      else .ok (.array { a with tensor := effect a.tensor })
  | _ => .ok arg

/-- The first items of a list; a negative number counts those left out at the
end. -/
def Loopback.firstItems {α : Type} (count : Option Int) (items : List α) : List α :=
  match count with
  | none => items
  | some n => if n < 0 then items.take (items.length + n).toNat else items.take n.toNat

/-- Arguments after a launch; those without a flag are not read only. -/
def Loopback.touchedAll (effect : Tensor → Tensor) :
    List Value → List Bool → Except Failure (List Value)
  | [], _ => .ok []
  | arg :: rest, flags => do
      let first ← touched effect arg (flags.headD false)
      return first :: (← touchedAll effect rest flags.tail)

/-- The loopback backend. -/
def loopback : Backend Machine where
  compile request := do
    let setup := (← Action.state).setup
    match setup.buildError with
    | some why => throw (.kernel (.build why))
    | none => return setup.kernelsOf (← Machine.read request.source)
  run request := do
    let setup := (← Action.state).setup
    match setup.runError with
    | some why => throw (.kernel (.execution why))
    | none =>
        let args ←
          if setup.increments then
            Loopback.touchedAll setup.effect request.args request.readOnly
          else pure request.args
        return ⟨(Loopback.firstItems setup.truncate args).map (⟨·, true⟩), args⟩

end KernelLaunch.Backend
