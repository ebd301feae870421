import KernelLaunch.Number.Binary

/-!
Storage types of array elements, and the conversions between them. A conversion
never fails: integers wrap, fractions are cut toward zero, numbers are rounded
to the nearest, and a real type keeps the real part only.
-/

namespace KernelLaunch.Host

open Number

-- Powers are those of numbers, also beside the powers of a monoid.
attribute [local instance (high)] instPowNat

/-- The widths of stored integers. -/
inductive Width where
  | byte
  | short
  | word
  | long
  deriving DecidableEq, Repr

/-- The bits of a stored integer. -/
def Width.bits : Width → Nat
  | byte => 8
  | short => 16
  | word => 32
  | long => 64

/-- The precisions that the parts of a complex number can have. -/
inductive Parts where
  | single
  | double
  deriving DecidableEq, Repr

def Parts.precision : Parts → Precision
  | single => .single
  | double => .double

/-- How an element of an array is stored. -/
inductive Storage where
  | truth
  | integer (signed : Bool) (width : Width)
  | real (p : Precision)
  | complex (parts : Parts)
  deriving DecidableEq, Repr

namespace Storage

/-- The elements of a storage type. A complex number is a pair of its real and
imaginary part. -/
def Elem : Storage → Type
  | truth => Bool
  | integer _ width => BitVec width.bits
  | real p => Binary p
  | complex parts => Binary parts.precision × Binary parts.precision

instance instDecidableEqElem : (s : Storage) → DecidableEq s.Elem
  | truth => inferInstanceAs (DecidableEq Bool)
  | integer _ width => inferInstanceAs (DecidableEq (BitVec width.bits))
  | real p => inferInstanceAs (DecidableEq (Binary p))
  | complex parts =>
      inferInstanceAs (DecidableEq (Binary parts.precision × Binary parts.precision))

def name : Storage → String
  | truth => "bool"
  | integer true .byte => "int8"
  | integer true .short => "int16"
  | integer true .word => "int32"
  | integer true .long => "int64"
  | integer false .byte => "uint8"
  | integer false .short => "uint16"
  | integer false .word => "uint32"
  | integer false .long => "uint64"
  | real .half => "float16"
  | real .single => "float32"
  | real .double => "float64"
  | complex .single => "complex64"
  | complex .double => "complex128"

def all : List Storage :=
  [truth,
    integer true .byte, integer true .short, integer true .word, integer true .long,
    integer false .byte, integer false .short, integer false .word, integer false .long,
    real .half, real .single, real .double, complex .single, complex .double]

def ofName? (name : String) : Option Storage := all.find? (·.name == name)

/-- The integers that a type of stored integers can hold. -/
def holds (signed : Bool) (width : Width) (n : Int) : Bool :=
  if signed then -2 ^ (width.bits - 1) ≤ n && n < 2 ^ (width.bits - 1)
  else 0 ≤ n && n < 2 ^ width.bits

def integerValue (signed : Bool) {width : Width} (b : BitVec width.bits) : Int :=
  if signed then b.toInt else b.toNat

/-- The real part of an element, in a precision. -/
def realPart (target : Precision) : (s : Storage) → s.Elem → Binary target
  | truth, b => .ofInt target (cond b 1 0)
  | integer signed _, b => .ofInt target (integerValue signed b)
  | real _, x => x.convert target
  | complex _, z => z.1.convert target

/-- The imaginary part of an element, in a precision. -/
def imaginaryPart (target : Precision) : (s : Storage) → s.Elem → Binary target
  | complex _, z => z.2.convert target
  | _, _ => .ofInt target 0

/-- The integer part of an element; zero where a number has none. -/
def integerPart : (s : Storage) → s.Elem → Int
  | truth, b => cond b 1 0
  | integer signed _, b => integerValue signed b
  | real _, x => x.truncated?.getD 0
  | complex _, z => z.1.truncated?.getD 0

/-- Whether an element is not zero. -/
def isNonzero : (s : Storage) → s.Elem → Bool
  | truth, b => b
  | integer _ _, b => b.toNat != 0
  | real _, x => !x.isZero
  | complex _, z => !z.1.isZero || !z.2.isZero

/-- An element stored another way. -/
def convert (s target : Storage) (e : s.Elem) : target.Elem :=
  if h : s = target then h ▸ e
  else match target with
    | truth => isNonzero s e
    | integer _ width => BitVec.ofInt width.bits (integerPart s e)
    | real p => realPart p s e
    | complex parts => (realPart parts.precision s e, imaginaryPart parts.precision s e)

@[simp] theorem convert_self (s : Storage) (e : s.Elem) : convert s s e = e := by
  simp [convert]

/-- The element plus one. Integers wrap, and truth stays true. -/
def successor : (s : Storage) → s.Elem → s.Elem
  | truth, _ => true
  | integer _ width, b => BitVec.add b (BitVec.ofNat width.bits 1)
  | real p, x => x.add (.ofInt p 1)
  | complex parts, z => (z.1.add (.ofInt parts.precision 1), z.2.add (.ofInt parts.precision 0))

/-- The least precision that holds every integer of a width. -/
def precisionOfWidth : Width → Precision
  | .byte => .half
  | .short => .single
  | _ => .double

def widerPrecision (p q : Precision) : Precision :=
  if p.width < q.width then q else p

/-- The complex parts that hold a precision. -/
def partsOfPrecision : Precision → Parts
  | .double => .double
  | _ => .single

def widerWidth (v w : Width) : Width := if v.bits < w.bits then w else v

def nextWidth? : Width → Option Width
  | .byte => some .short
  | .short => some .word
  | .word => some .long
  | .long => none

/-- The signed integers that hold a signed and an unsigned width, or double
precision where no integers do. -/
def mixedIntegers (signed unsigned : Width) : Storage :=
  if unsigned.bits < signed.bits then integer true signed
  else match nextWidth? unsigned with
    | some wider => integer true wider
    | none => real .double

/-- The storage type in which elements of two types are kept together. -/
def common : Storage → Storage → Storage
  | truth, t => t
  | s, truth => s
  | integer true v, integer true w => integer true (widerWidth v w)
  | integer false v, integer false w => integer false (widerWidth v w)
  | integer true v, integer false w => mixedIntegers v w
  | integer false v, integer true w => mixedIntegers w v
  | integer _ v, real p => real (widerPrecision (precisionOfWidth v) p)
  | real p, integer _ w => real (widerPrecision p (precisionOfWidth w))
  | real p, real q => real (widerPrecision p q)
  | integer _ v, complex c =>
      complex (partsOfPrecision (widerPrecision (precisionOfWidth v) c.precision))
  | complex c, integer _ w =>
      complex (partsOfPrecision (widerPrecision c.precision (precisionOfWidth w)))
  | real p, complex c => complex (partsOfPrecision (widerPrecision p c.precision))
  | complex c, real q => complex (partsOfPrecision (widerPrecision c.precision q))
  | complex c, complex d => complex (partsOfPrecision (widerPrecision c.precision d.precision))

end Storage

end KernelLaunch.Host
