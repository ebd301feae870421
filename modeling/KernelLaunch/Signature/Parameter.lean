import KernelLaunch.ElementType
import KernelLaunch.Signature.Declaration
import KernelLaunch.Signature.Parts

/-!
Kernel parameters. A parameter is described by its name, by whether the kernel
only reads it, by whether it stands for one element or for many, and by the
type of its elements, both as the source names it and as an element type.
-/

namespace KernelLaunch.Signature

open Text

/-- Which way the data of a parameter goes. -/
inductive Direction where
  /-- The kernel only reads it. -/
  | input
  | inout
  deriving DecidableEq, Repr

/-- The word for a direction. -/
def Direction.text : Direction → String
  | input => "in"
  | inout => "inout"

/-- How many elements a parameter stands for. -/
inductive Shape where
  | scalar
  /-- Pointers and arrays. -/
  | vector
  deriving DecidableEq, Repr

/-- The word for a shape. -/
def Shape.text : Shape → String
  | scalar => "scalar"
  | vector => "vector"

structure Parameter where
  /-- Empty if the declaration has none. -/
  name : String
  direction : Direction
  shape : Shape
  /-- The type in the source, without qualifiers and vector width. -/
  sourceType : String
  /-- A canonical element type, or the type in the source if it is unknown. -/
  elementType : String
  deriving DecidableEq, Repr

namespace Parameter

/-- A parameter whose element type follows from its type in the source. -/
def ofSourceType (name : String) (direction : Direction) (shape : Shape) (sourceType : String) :
    Parameter :=
  ⟨name, direction, shape, sourceType, ElementType.ofKernelType sourceType⟩

def ofDeclaration (declaration : String) : Parameter :=
  ofSourceType (String.ofList (typeAndName declaration.toList).2)
    (if isReadOnly declaration then .input else .inout)
    (if isPointer declaration then .vector else .scalar)
    (typeOf declaration)

/-- The parameters of a parameter list, in order. -/
def ofSignature (signature : String) : List Parameter := (parts signature).map ofDeclaration

/-- Whether the kernel only reads the parameter. -/
def isInput (p : Parameter) : Bool := p.direction = .input

/-- Whether the parameter stands for many elements. -/
def isVector (p : Parameter) : Bool := p.shape = .vector

def isResolved (p : Parameter) : Bool := ElementType.isResolved p.elementType

/-- What equal parameters are sure to share when they are looked up: all but
the type in the source. -/
def key (p : Parameter) : String × Direction × Shape × String :=
  (p.name, p.direction, p.shape, p.elementType)

/-- The type of a parameter in words. -/
def text (p : Parameter) : String :=
  p.direction.text ++ " " ++ p.elementType ++ " " ++ p.shape.text

/-- The text that shows all of a parameter but its type in the source. -/
def exact (p : Parameter) : String :=
  "ArgumentDescriptor(" ++
    listed [quoted p.name, p.direction.text, p.shape.text, p.elementType] ++ ")"

end Parameter

end KernelLaunch.Signature
