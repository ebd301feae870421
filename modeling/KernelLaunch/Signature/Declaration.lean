import KernelLaunch.Text.Blank
import KernelLaunch.Text.Digit
import KernelLaunch.Text.Word

/-!
One parameter declaration: which words of it are the type, which is the name,
and what its qualifiers, stars and array sizes say about the parameter.
-/

namespace KernelLaunch.Signature

open Text

/-- The words that say where a parameter lives or how it may be used. Each may
also be written with two underscores before it. -/
def qualifiers : List String :=
  ["global", "constant", "local", "private", "generic", "const", "volatile", "restrict",
    "read_only", "write_only", "read_write"]

/-- A word without the two underscores it may begin with. -/
def bare (word : List Char) : List Char :=
  match word with
  | '_' :: '_' :: rest => rest
  | _ => word

/-- A word of `names`, with or without two underscores before it. -/
def isOneOf (names : List String) (word : List Char) : Bool :=
  names.any fun name => word == name.toList || word == '_' :: '_' :: name.toList

/-- A word that begins and ends with two underscores, with something between. -/
def isAttribute (word : List Char) : Bool :=
  5 ≤ word.length && word.take 2 == ['_', '_'] && word.drop (word.length - 2) == ['_', '_']

/-- The text with each qualifier and attribute replaced by a space. -/
def dropQualifiers (cs : List Char) : List Char :=
  (runs cs).flatMap fun (isWord, run) =>
    if isWord && (isAttribute run || isOneOf qualifiers run) then [' '] else run

/-- The text with each array size replaced by a space. A size goes from an
opening square bracket to the next closing one; a bracket that is never closed
is kept. `inside` says that the text starts within a size. -/
def dropSizes : (inside : Bool) → List Char → List Char
  | _, [] => []
  | true, c :: rest => dropSizes (c != ']') rest
  | false, c :: rest =>
      if c = '[' ∧ rest.contains ']' then ' ' :: dropSizes true rest
      else c :: dropSizes false rest

/-- Whether a text holds an array size. -/
def hasSize : List Char → Bool
  | [] => false
  | c :: rest => (c == '[' && rest.contains ']') || hasSize rest

/-- The words of a declaration that name its type and the parameter. -/
def typeWords (declaration : List Char) : List (List Char) :=
  words ((dropSizes false (dropQualifiers declaration)).map fun c => if c = '*' then ' ' else c)

/-- The words of the type, and the name. The last word is the name unless it is
the only one, which leaves the parameter unnamed. -/
def typeAndName (declaration : List Char) : List Char × List Char :=
  match typeWords declaration with
  | [] => ([], [])
  | [only] => (only, [])
  | all => (joinWith [' '] all.dropLast, all.getLastD [])

/-- A type name without its vector width: one or two digits at its end that
follow a letter of the basic alphabet or an underscore. -/
def dropWidth (name : List Char) : List Char :=
  let digits := name.reverse.takeWhile isDigit
  let rest := name.reverse.dropWhile isDigit
  match rest with
  | c :: _ =>
      if (digits.length = 1 ∨ digits.length = 2) ∧ isNameStart c then rest.reverse else name
  | [] => name

/-- The type of a declaration, without qualifiers, stars, sizes and width. -/
def typeOf (declaration : String) : String :=
  String.ofList (dropWidth (typeAndName declaration.toList).1)

/-- Whether a declaration promises that the kernel only reads the parameter. -/
def isReadOnly (declaration : String) : Bool :=
  (runs declaration.toList).any fun (isWord, run) =>
    isWord && isOneOf ["const", "constant"] run

def isPointer (declaration : String) : Bool :=
  declaration.toList.contains '*' || hasSize declaration.toList

end KernelLaunch.Signature
