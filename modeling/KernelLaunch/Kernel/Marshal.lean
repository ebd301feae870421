import KernelLaunch.ElementType
import KernelLaunch.Host.Complex
import KernelLaunch.Signature.Override

/-!
Marshalling of arguments. Complex arguments are split into real and imaginary parts. A
copying call casts every argument to the element type of its parameter; an in-place call
casts those of scalar parameters only, which are passed by value and must have the exact
size, and passes all other arrays as they are.
-/

namespace KernelLaunch.Kernel

open Host Signature

structure Passed where
  value : Value
  /-- Whether it is the very argument of the caller. -/
  isCallers : Bool

/-- A fresh array to pass on. -/
def Passed.fresh (t : Tensor) : Passed := ⟨.ofTensor t, false⟩

/-- Splits a complex argument into a real array with a leading dimension of two; any other one
is kept. -/
def encode (isComplex : Bool) (arg : Value) : Except Failure Passed :=
  if isComplex then arg.split.map Passed.fresh else .ok ⟨arg, true⟩

/-- An argument cast to the type of its parameter. -/
def castTo (p : Parameter) (passed : Passed) : Except Failure Passed :=
  (ElementType.cast passed.value p.elementType).map Passed.fresh

/-- An argument of an in-place call: cast only for a scalar parameter of resolved type. -/
def castInPlace (p : Parameter) (passed : Passed) : Except Failure Passed :=
  if !p.isVector && p.isResolved then castTo p passed else .ok passed

/-- Arguments encoded, each by its flag. -/
def encodeAll (complex : List Bool) (args : List Value) : Except Failure (List Passed) :=
  (complex.zip args).mapM fun (isComplex, arg) => encode isComplex arg

/-- Arguments cast for a call. A copying call has to know all types. -/
def castAll (name : String) (parameters : List Parameter) (inPlace : Bool)
    (passed : List Passed) : Except Failure (List Passed) :=
  if inPlace then (parameters.zip passed).mapM fun (p, a) => castInPlace p a
  else match unresolved parameters with
    | [] => (parameters.zip passed).mapM fun (p, a) => castTo p a
    | unknown => .error (.kernel (.unresolvedTypes name unknown))

/-- The read-only flag of an argument. Scalar arguments always have it. A backend passes
read-only arguments of one element by value, so an input vector argument of one element is
flagged as written, to reach its pointer parameter in a buffer. -/
def readOnly (p : Parameter) (arg : Value) : Except Failure Bool :=
  if !p.isVector then .ok true
  else if p.isInput then arg.isSingle.map (!·)
  else .ok false

/-- The flags of arguments, as far as there are parameters for them. -/
def readOnlyAll (parameters : List Parameter) (args : List Value) :
    Except Failure (List Bool) :=
  (parameters.zip args).mapM fun (p, arg) => readOnly p arg

end KernelLaunch.Kernel
