import KernelLaunch.Text.Blank
import KernelLaunch.Text.Word
import KernelLaunch.Source.Comment
import KernelLaunch.Source.Directive

/-!
Kernel interfaces. A kernel is declared by the word `kernel` (or `__kernel`),
the word `void`, a name and a parameter list in parentheses. The parameter list
ends where round and square brackets, counted together, balance.
-/

namespace KernelLaunch.Source

open Text

/-- A kernel as its source declares it. -/
structure Interface where
  name : String
  /-- The parameter list, as written. -/
  signature : String
  deriving DecidableEq, Repr

/-- The rest of a text after a fixed beginning. -/
def after? : (beginning : List Char) → List Char → Option (List Char)
  | [], cs => some cs
  | _ :: _, [] => none
  | b :: beginning, c :: cs => if b = c then after? beginning cs else none

/-- The rest of a text after one or more blanks. -/
def afterBlanks? : List Char → Option (List Char)
  | c :: rest => if isBlank c then some (trimLeft rest) else none
  | [] => none

/-- The name at the start of a text, and the rest after it. -/
def name? : List Char → Option (List Char × List Char)
  | c :: rest =>
      if isNameStart c then some (c :: rest.takeWhile isWord, rest.dropWhile isWord) else none
  | [] => none

/-- A kernel header at the start of a text: the name, and the rest after the
opening parenthesis. -/
def header? (cs : List Char) : Option (List Char × List Char) := do
  let rest := (after? ['_', '_'] cs).getD cs
  let rest ← after? "kernel".toList rest
  let rest ← afterBlanks? rest
  let rest ← after? "void".toList rest
  let rest ← afterBlanks? rest
  let (name, rest) ← name? rest
  let rest ← after? ['('] (trimLeft rest)
  some (name, rest)

/-- The text before the bracket that closes `depth + 1` open ones, if that
bracket is a parenthesis. -/
def balanced? : (depth : Nat) → List Char → Option (List Char)
  | _, [] => none
  | depth, c :: rest =>
      if c = '(' ∨ c = '[' then (balanced? (depth + 1) rest).map (c :: ·)
      else if c = ')' ∨ c = ']' then
        match depth with
        | 0 => if c = ')' then some [] else none
        | depth + 1 => (balanced? depth rest).map (c :: ·)
      else (balanced? depth rest).map (c :: ·)

/-- The interface declared at the start of a text. -/
def interface? (cs : List Char) : Option Interface := do
  let (name, rest) ← header? cs
  let signature ← balanced? 0 rest
  some ⟨String.ofList name, String.ofList signature⟩

/-- All interfaces declared in a text, one for each declaration. `inWord` says
that the text goes on a word, at whose middle no header starts. -/
def declaredFrom : (inWord : Bool) → List Char → List Interface
  | _, [] => []
  | inWord, c :: rest =>
      let found := if inWord then none else interface? (c :: rest)
      found.toList ++ declaredFrom (isWord c) rest

/-- What makes two declarations the same: the name, and the parameter list up
to blanks. -/
def Interface.key (i : Interface) : String × List Char :=
  (i.name, collapse i.signature.toList)

/-- The interfaces without those that repeat the key of an earlier one or a key
already `seen`. -/
def distinctFrom (seen : List (String × List Char)) : List Interface → List Interface
  | [] => []
  | i :: rest =>
      if i.key ∈ seen then distinctFrom seen rest
      else i :: distinctFrom (i.key :: seen) rest

/-- The kernels of a source without comments, in order of first appearance. A
prototype and its definition count once. -/
def kernels (cs : List Char) : List Interface :=
  distinctFrom [] (declaredFrom false cs)

/-- The source text in which kernels are looked for. -/
def code (cs : List Char) : List Char := stripDirectives (stripComments cs)

end KernelLaunch.Source
