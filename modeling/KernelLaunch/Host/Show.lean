import KernelLaunch.Host.Value
import KernelLaunch.Number.Decimal
import KernelLaunch.Text.Blank
import KernelLaunch.Text.Quoted

/-!
Texts of host values in messages and templates. A value has two texts: the
plain one, in which a text stands for itself, and the exact one, in which it is
quoted and a single element names its storage type.
-/

namespace KernelLaunch.Host

open Number Text

/-- The part of a complex number, without a fraction of zero. -/
def partText {p : Precision} (x : Binary p) : String :=
  let s := x.text.toList
  if s.drop (s.length - 2) = ['.', '0'] then String.ofList (s.take (s.length - 2))
  else String.ofList s

def complexText {p : Precision} (re im : Binary p) : String :=
  if re.isZero && !re.isNegative then partText im ++ "j"
  else
    let sign := if im.isNegative then "" else "+"
    "(" ++ partText re ++ sign ++ partText im ++ "j)"

def truthText (b : Bool) : String := if b then "True" else "False"

def elementText : (s : Storage) → s.Elem → String
  | .truth, b => truthText b
  | .integer signed _, b => toString (Storage.integerValue signed b)
  | .real _, x => x.text
  | .complex _, z => complexText z.1 z.2

/-- The exact text of an element, with its storage type. -/
def typedText (s : Storage) (e : s.Elem) : String :=
  match s, e with
  | .truth, b => "np." ++ truthText b
  | .complex parts, z =>
      let inner := complexText (p := parts.precision) z.1 z.2
      let bracketed := if inner.startsWith "(" then inner else "(" ++ inner ++ ")"
      "np." ++ (Storage.complex parts).name ++ bracketed
  | s, e => "np." ++ s.name ++ "(" ++ elementText s e ++ ")"

/-- The text of an element inside an array, where a fraction of zero leaves
only its point. -/
def cellText (s : Storage) (e : s.Elem) : String :=
  match s, e with
  | .real _, x => partText x ++ (if x.text.endsWith ".0" then "." else "")
  | s, e => elementText s e

/-- The cells of an array inside one pair of square brackets for each
dimension. -/
def bracketed (a : HostArray) (separator : String) : String :=
  let cells := a.tensor.grid.cells.map (cellText a.tensor.storage)
  let depth := a.tensor.shape.length
  String.ofList (List.replicate depth '[') ++ separator.intercalate cells ++
    String.ofList (List.replicate depth ']')

def Atom.exact : Atom → String
  | .absent => "None"
  | .truth b => truthText b
  | .int n => toString n
  | .real x => x.text
  | .complex re im => complexText re im
  | .text s => quoted s
  | .element s e => typedText s e

def Atom.plain : Atom → String
  | .text s => s
  | .element s e => elementText s e
  | a => a.exact

/-- The storage types that go without saying. -/
def isUsual : Storage → Bool
  | .truth | .integer true .long | .real .double | .complex .double => true
  | _ => false

mutual

def Value.exact : Value → String
  | .atom a => a.exact
  | .array a =>
      let s := a.tensor.storage
      "array(" ++ bracketed a ", " ++
        (if isUsual s then ")" else ", dtype=" ++ s.name ++ ")")
  | .list items => "[" ++ listed (exactAll items) ++ "]"

/-- The exact texts of several values. -/
def exactAll : List Value → List String
  | [] => []
  | v :: rest => v.exact :: exactAll rest

end

def Value.plain : Value → String
  | .atom a => a.plain
  | .array a => bracketed a " "
  | v => v.exact

/-- The text of named values, in their order. -/
def namedText (pairs : List (String × Value)) : String :=
  "\x7b" ++ listed (pairs.map fun (name, v) => quoted name ++ ": " ++ v.exact) ++ "\x7d"

end KernelLaunch.Host
