import KernelLaunch.Error
import KernelLaunch.Host.Complex

/-!
Number types by name. A type has one usual name and several others; a short
code is a letter, or a letter with the number of bytes, after an optional mark
of the byte order. Some types cannot be stored here and are known by name alone.
-/

namespace KernelLaunch.Host

open Text

/-- A type that a name may stand for. -/
inductive NumberType where
  | stored (s : Storage)
  | extendedReal
  | extendedComplex
  /-- A type of anything but numbers. -/
  | other
  deriving DecidableEq

namespace NumberType

/-- The names in words of a type, the usual one first. -/
def names : NumberType → List String
  | stored .truth => ["bool", "bool_"]
  | stored (.integer true .byte) => ["int8", "byte"]
  | stored (.integer true .short) => ["int16", "short"]
  | stored (.integer true .word) => ["int32", "intc"]
  | stored (.integer true .long) => ["int64", "long", "longlong", "int", "int_", "intp"]
  | stored (.integer false .byte) => ["uint8", "ubyte"]
  | stored (.integer false .short) => ["uint16", "ushort"]
  | stored (.integer false .word) => ["uint32", "uintc"]
  | stored (.integer false .long) => ["uint64", "ulong", "ulonglong", "uint", "uintp"]
  | stored (.real .half) => ["float16", "half"]
  | stored (.real .single) => ["float32", "single"]
  | stored (.real .double) => ["float64", "double", "float"]
  | stored (.complex .single) => ["complex64", "csingle"]
  | stored (.complex .double) => ["complex128", "cdouble", "complex"]
  | extendedReal => ["float128", "longdouble"]
  | extendedComplex => ["complex256", "clongdouble"]
  | other =>
      ["object", "object_", "str", "str_", "unicode", "bytes", "bytes_", "void", "datetime64",
        "timedelta64"]

/-- The codes of a type that are a single letter. -/
def letters : NumberType → List Char
  | stored .truth => ['?']
  | stored (.integer true .byte) => ['b']
  | stored (.integer true .short) => ['h']
  | stored (.integer true .word) => ['i']
  | stored (.integer true .long) => ['l', 'q', 'p', 'n']
  | stored (.integer false .byte) => ['B']
  | stored (.integer false .short) => ['H']
  | stored (.integer false .word) => ['I']
  | stored (.integer false .long) => ['L', 'Q', 'P', 'N']
  | stored (.real .half) => ['e']
  | stored (.real .single) => ['f']
  | stored (.real .double) => ['d']
  | stored (.complex .single) => ['F']
  | stored (.complex .double) => ['D']
  | extendedReal => ['g']
  | extendedComplex => ['G']
  | other => ['O', 'S', 'U', 'V', 'M', 'm', 'c', 'T', 'a']

/-- The codes of a type that are a letter and a number of bytes. -/
def sizes : NumberType → List (Char × Nat)
  | stored .truth => [('b', 1)]
  | stored (.integer signed width) => [(if signed then 'i' else 'u', width.bits / 8)]
  | stored (.real p) => [('f', p.width / 8)]
  | stored (.complex parts) => [('c', parts.precision.width / 4)]
  | extendedReal => [('f', 16)]
  | extendedComplex => [('c', 32)]
  | other => [('O', 8), ('O', 4), ('M', 8), ('m', 8)]

def all : List NumberType := Storage.all.map stored ++ [extendedReal, extendedComplex, other]

/-- The type of a code with a number of bytes. Texts may have any length. -/
def ofSize? (letter : Char) (bytes : Nat) : Option NumberType :=
  if ['S', 'U', 'V', 'a'].contains letter then some other
  else all.find? (·.sizes.contains (letter, bytes))

/-- The type of a code without a mark of the byte order. -/
def ofCode? : List Char → Option NumberType
  | [] => none
  | [letter] => all.find? (·.letters.contains letter)
  | letter :: digits =>
      if digits.all Number.isPlainDigit then
        ofSize? letter (ofDigits (digits.filterMap digitValue?))
      else none

/-- A code without its mark of the byte order. -/
def unmarked : List Char → List Char
  | c :: rest => if ['<', '>', '=', '|'].contains c then rest else c :: rest
  | [] => []

/-- The units of types for points in time and their distances. -/
def timeUnits : List String :=
  ["Y", "M", "W", "D", "h", "m", "s", "ms", "us", "ns", "ps", "fs", "as"]

/-- Whether a name is one of a type for points in time or their distances, with
a unit. -/
def isTimed (name : String) : Bool :=
  ["datetime64[", "timedelta64[", "M8[", "m8["].any fun start =>
    timeUnits.any fun unit => name == start ++ unit ++ "]"

def ofName? (name : String) : Option NumberType :=
  match ofCode? (unmarked name.toList) with
  | some t => some t
  | none => if isTimed name then some other else all.find? (·.names.contains name)

def name (t : NumberType) : String := t.names.headD ""

/-- The real type of the parts of a number type. Integers have none. -/
def realFor : NumberType → Except Failure NumberType
  | stored (.real p) => .ok (stored (.real p))
  | stored (.complex parts) => .ok (stored (.real parts.precision))
  | extendedReal | extendedComplex => .ok extendedReal
  | stored _ | other => .error .badValue

/-- The complex type that holds pairs of a number type. Types that are not real
get the usual one. -/
def complexFor : NumberType → NumberType
  | stored s => stored (.complex s.paired)
  | extendedReal => extendedComplex
  | extendedComplex | other => stored (.complex .double)

/-- The real type for a name. A name of no type is taken for a text, which has
none. -/
def realForName (name : String) : Except Failure NumberType :=
  ((ofName? name).getD other).realFor

/-- The complex type for a name, which must stand for a type. -/
def complexForName (name : String) : Except Failure NumberType :=
  match ofName? name with
  | some t => .ok t.complexFor
  | none => .error .wrongKind

end NumberType

end KernelLaunch.Host
