import KernelLaunch.Kernel.Build
import KernelLaunch.Kernel.Marshal

/-!
Kernel calls: the check of the argument count, the build if the kernel is not built, the
check of the block against the device limits, marshalling, the launch, and the outputs of
parameters that are not read only.
-/

namespace KernelLaunch.Kernel

open Host Text Signature Backend

variable {σ : Type}

/-- The outputs of a call, and the caller's arguments after it. -/
structure CallResult where
  outputs : List Result
  args : List Value

/-- The numbers of a vector with commas between them. -/
def commaText (t : Geometry.Triple Int) : String :=
  String.ofList (joinWith [','] (t.toList.map fun n => (toString n).toList))

/-- Checks a block against the maximum work item sizes and the maximum work group size of a
device. -/
def checkBlock (block : Geometry.Triple Int) (device : Device) : Except Failure Unit :=
  let limits := device.maxItemSizes
  if (block.zipWith (fun size limit => decide (limit < size)) limits).any id then
    .error (.kernel (.blockSize ("The work group size of [" ++ commaText block ++
      "] cannot exceed the device limit of [" ++ commaText limits ++ "].")))
  else if device.maxGroupSize < block.product then
    .error (.kernel (.blockSize ("The number of work items (" ++ toString block.product ++
      ") cannot exceed " ++ toString device.maxGroupSize ++ ".")))
  else .ok ()

/-- The warning of an in-place call with complex arguments, which are copied. -/
def copyWarning : String := "Complex inputs will be copied to convert them to real data."

/-- The output for a result; the result for a complex argument is joined to a complex
array. -/
def decode (isComplex : Bool) (passed : Passed) (result : Result) : Except Failure Result := do
  if isComplex then return ⟨.ofTensor (← result.value.join), false⟩
  else return ⟨result.value, passed.isCallers && result.isArgument⟩

/-- The outputs: the results for parameters that are not only read. -/
def outputs : List Parameter → List Bool → List Passed → List Result →
    Except Failure (List Result)
  | p :: ps, isComplex :: flags, passed :: args, result :: results =>
      if p.isInput then outputs ps flags args results
      else do
        let output ← decode isComplex passed result
        return output :: (← outputs ps flags args results)
  | _, _, _, _ => .ok []

/-- The arguments of the caller after a launch: those passed on themselves may
have changed. -/
def argsAfter : List Value → List Passed → List Value → List Value
  | arg :: args, passed :: others, after :: rest =>
      (if passed.isCallers then after else arg) :: argsAfter args others rest
  | args, _, _ => args

/-- The arguments of a call as they are passed on, and which of them were
complex. -/
def marshal (k : Kernel) (args : List Value) (inPlace : Bool) :
    Action σ (List Bool × List Passed) := do
  let complex ← (args.mapM Value.isComplex : Except Failure (List Bool))
  if inPlace && complex.any id then Action.note (.warning copyWarning)
  let encoded ← encodeAll complex args
  let passed ← castAll k.name k.parameters inPlace encoded
  return (complex, passed)

def launch (b : Backend σ) (k : Kernel) (device : Device) (args : List Value)
    (inPlace : Bool) : Action σ CallResult := do
  checkBlock k.geometry.block device
  let (complex, passed) ← k.marshal args inPlace
  let values := passed.map (·.value)
  let flags ← readOnlyAll k.parameters values
  let (launch, block) := k.geometry.launchVectors
  let reply ← b.askRun ⟨device, k.name, launch, block, values, flags⟩
  return ⟨← outputs k.parameters complex passed reply.results, argsAfter args passed reply.args⟩

/-- A finished call: its outcome, the kernel with its build record, and the world after it. -/
structure Called (σ : Type) where
  outcome : Except Failure CallResult
  kernel : Kernel
  world : World σ

def call (b : Backend σ) (k : Kernel) (args : List Value) (inPlace : Bool) (w : World σ) :
    Called σ :=
  if args.length ≠ k.parameters.length then
    ⟨.error (.kernel (.argumentCount k.parameters.length k.declaration)), k, w⟩
  else match (k.ready b).perform w with
    | (.error e, w) => ⟨.error e, k, w⟩
    | (.ok (built, device), w) =>
        let (outcome, w) := (built.launch b device args inPlace).perform w
        ⟨outcome, built, w⟩

end KernelLaunch.Kernel
