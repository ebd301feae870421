import KernelLaunch.Host.Show

/-!
Exceptions. Those of kernels carry the data that their messages show. Exceptions of value
conversions and templates are told apart by their class alone.
-/

namespace KernelLaunch

open Host Text

/-- Failures of kernels, their builds and their calls. -/
inductive KernelError where
  /-- Any other failure of a kernel, with its text. -/
  | general (reason : String)
  /-- No name was asked for, and there are several kernels. -/
  | ambiguous (candidates : List String)
  /-- The name is not declared once, or no name was asked for and there is no
  kernel. -/
  | notFound (name : Option String) (candidates : List String)
  /-- The built program has no kernel of the name. -/
  | missingFromBuild (name : String) (found : List String)
  /-- The numbers of types and aliases differ. -/
  | aliasCount (types aliases : List String)
  /-- Parameters have unresolved types. -/
  | unresolvedTypes (kernel : String) (aliases : List String)
  /-- A call with too many or too few arguments. -/
  | argumentCount (expected : Int) (declaration : String)
  /-- The block does not fit the device. -/
  | blockSize (reason : String)
  /-- There is no device of that index. -/
  | deviceIndex (index : Value) (available : Int)
  /-- A build without a device. -/
  | noDevice (reason : String)
  /-- The compiler refused the source. -/
  | build (reason : String)
  /-- The launch failed. -/
  | execution (reason : String)

/-- The text of a failure of a kernel. Candidates are listed in braces. -/
def KernelError.message : KernelError → String
  | .general reason | .blockSize reason | .noDevice reason | .build reason
  | .execution reason => reason
  | .ambiguous candidates =>
      "The kernel must be specified - the detected kernels are \x7b" ++ listed candidates ++
        "\x7d."
  | .notFound none _ => "Cannot find any kernels in the source."
  | .notFound (some name) candidates =>
      "The requested kernel (" ++ name ++ ") was not found - the detected kernels are \x7b" ++
        listed candidates ++ "\x7d."
  | .missingFromBuild name found =>
      "Expected to find kernel " ++ name ++ " but instead the kernels found were \x7b" ++
        listed found ++ "\x7d."
  | .aliasCount types aliases =>
      "Expected a matching type for each alias: [" ++ listed aliases ++
        "] but instead got the types [" ++ listed types ++ "]."
  | .unresolvedTypes kernel aliases =>
      "Cannot cast arguments of kernel '" ++ kernel ++ "': the types [" ++ listed aliases ++
        "] are unknown. Use define_types() to map them to element types."
  | .argumentCount expected declaration =>
      "Expected " ++ toString expected ++ " inputs. The kernel has the following declaration:\n" ++
        declaration ++ ";"
  | .deviceIndex index available =>
      "Invalid OpenCL device id: " ++ index.plain ++ ". Select a device id from the range 0:" ++
        toString available ++ "."

/-- The text of an exception with several arguments: a single argument is shown alone, more
are listed. -/
def reasonText : List Value → String
  | [] => ""
  | [v] => v.plain
  | values => "(" ++ listed (values.map (·.exact)) ++ ")"

/-- The text of a vector whose components may be missing. -/
def vectorText (components : List (Option Int)) : String :=
  let texts := components.map fun c => c.elim "None" toString
  match texts with
  | [only] => "(" ++ only ++ ",)"
  | _ => "(" ++ listed texts ++ ")"

/-- Failures of work sizes. -/
inductive SizeError where
  | tooManyComponents (limit : Int) (given : Nat)
  | notInteger (component : String)
  | negativeBlock (components : List (Option Int))
  | nonPositiveGrid (components : List (Option Int))
  | negativeOffset (components : List (Option Int))
  | nonPositiveGlobal (components : List (Option Int))

/-- The text of a failure of a work size. -/
def SizeError.message : SizeError → String
  | .tooManyComponents limit given =>
      "Expected at most " ++ toString limit ++ " components, got " ++ toString given
  | .notInteger component => "Vector components must be integers, got " ++ component
  | .negativeBlock v => "Thread block size must be non-negative, got " ++ vectorText v
  | .nonPositiveGrid v => "Grid size must be positive, got " ++ vectorText v
  | .negativeOffset v => "Global offset must be non-negative, got " ++ vectorText v
  | .nonPositiveGlobal v => "Global size must be positive, got " ++ vectorText v

inductive Failure where
  | kernel (e : KernelError)
  | size (e : SizeError)
  /-- Not a kind of device; holds the exact text of what was given. -/
  | unknownDeviceType (given : String)
  /-- Not an element type; holds the exact text of what was given, and all that
  would do. -/
  | unknownElementType (given : String) (known : List String)
  /-- A setting of a kernel that cannot be replaced in a copy. -/
  | fixedField (name : String)
  /-- A value of the wrong type. -/
  | wrongKind
  /-- A value of the right type that is not allowed. -/
  | badValue
  /-- A number that is too large for its destination. -/
  | outOfRange
  /-- A sequence that is too long to be kept. -/
  | outOfMemory
  /-- Elements that cannot be multiplied with each other. -/
  | noProduct
  /-- A name that is no canonical element type. -/
  | unknownKey
  /-- A position outside of a sequence. -/
  | badPosition
  /-- A template uses an undefined name. -/
  | undefinedName
  /-- A template uses an unbound loop variable. -/
  | unsetName
  | missingFile
  | notImplemented
  /-- A mask that is no pattern. -/
  | badPattern
  /-- A structural syntax error of a template. -/
  | templateStructure
  /-- A compile error of a template: an unknown tag or control line. -/
  | templateElement
  /-- A template whose compiled module is a syntax error, such as a misplaced `else`. -/
  | templateOrder
  /-- A name reserved by the template engine. -/
  | keptName

/-- The text of a failure, for those that have one. -/
def Failure.message? : Failure → Option String
  | .kernel e => some e.message
  | .size e => some e.message
  | .unknownDeviceType given => some ("Unknown device type: " ++ given)
  | .unknownElementType given known =>
      some ("Unknown element type: " ++ given ++ "; must be one of " ++ listed known)
  | .fixedField name => some ("Cannot change the field " ++ quoted name)
  | _ => none

/-- The items of a sequence; other values are not iterable. -/
def Host.Value.items (v : Value) : Except Failure (List Value) :=
  match v.items? with
  | some items => .ok items
  | none => .error .wrongKind

/-- The texts of a list, which has to hold texts only. -/
def Host.textsOf (values : List Value) : Except Failure (List String) :=
  match values.mapM Value.text? with
  | some texts => .ok texts
  | none => .error .wrongKind

end KernelLaunch
