import KernelLaunch.Error
import KernelLaunch.Host.Collect

/-!
Element types of kernel parameters. Each canonical name stands for a storage
type; the kernel language and callers have further names for some of them. A
name that is none of these is kept as it is and counts as unresolved.
-/

namespace KernelLaunch.ElementType

open Host Text

/-- The canonical names, in alphabetical order, with their storage types. -/
def canonical : List (String × Storage) :=
  [("double", .real .double), ("float", .real .single), ("half", .real .half),
    ("int16", .integer true .short), ("int32", .integer true .word),
    ("int64", .integer true .long), ("int8", .integer true .byte),
    ("uint16", .integer false .short), ("uint32", .integer false .word),
    ("uint64", .integer false .long), ("uint8", .integer false .byte)]

/-- The types of the kernel language with a canonical name. -/
def kernelTypes : List (String × String) :=
  [("uchar", "uint8"), ("unsigned char", "uint8"), ("ushort", "uint16"),
    ("unsigned short", "uint16"), ("uint", "uint32"), ("unsigned int", "uint32"),
    ("unsigned", "uint32"), ("ulong", "uint64"), ("unsigned long", "uint64"),
    ("char", "int8"), ("signed char", "int8"), ("short", "int16"), ("signed short", "int16"),
    ("int", "int32"), ("signed int", "int32"), ("signed", "int32"), ("long", "int64"),
    ("signed long", "int64"), ("half", "half"), ("float", "float"), ("double", "double")]

/-- Further spellings that callers may use. -/
def spellings : List (String × String) :=
  [("single", "float"), ("float16", "half"), ("float32", "float"), ("float64", "double")]

/-- The canonical name of a type of the kernel language, whatever its spacing;
any other name stays, with single spaces. -/
def ofKernelType (name : String) : String :=
  let name := String.ofList (collapse name.toList)
  (kernelTypes.lookup name).getD name

def storage? (name : String) : Option Storage := canonical.lookup name

def isResolved (name : String) : Bool := (storage? name).isSome

/-- The storage type of a canonical name, or a failure. -/
def storage (name : String) : Except Failure Storage :=
  match storage? name with
  | some s => .ok s
  | none => .error .unknownKey

/-- Normalizes an element type to its canonical name. Only a text can have one, and a list,
which is not hashable, cannot even be looked up. -/
def normalize (given : Value) : Except Failure String :=
  match given with
  | .atom (.text name) =>
      let name := (spellings.lookup name).getD name
      if isResolved name then .ok name
      else .error (.unknownElementType (quoted name) (canonical.map (·.1)))
  | .atom a => .error (.unknownElementType a.exact (canonical.map (·.1)))
  | _ => .error .wrongKind

/-- Whether a value is a canonical name. A sequence cannot be looked up. -/
def isCanonical : Value → Except Failure Bool
  | .atom (.text name) => .ok (isResolved name)
  | .atom _ => .ok false
  | _ => .error .wrongKind

def storageOf : Value → Except Failure Storage
  | .atom (.text name) => storage name
  | .atom _ => .error .unknownKey
  | _ => .error .wrongKind

/-- Casts a value to the storage type of an element type. -/
def cast (v : Value) (name : String) : Except Failure Tensor := do
  v.collectAs (← storage name)

end KernelLaunch.ElementType
