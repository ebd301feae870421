import KernelLaunch.Text.Blank
import KernelLaunch.Text.Case
import KernelLaunch.Text.Digit
import KernelLaunch.Text.Word

/-!
Regular expressions for masks. A mask is searched for, and only whether it matches somewhere
matters. So a pattern denotes, for each start position, the set of positions where a match
can end; preference among matches plays no part.
-/

namespace KernelLaunch.Text

/-- A set of characters that a pattern can name. -/
inductive CharSet where
  | only (c : Char)
  | range (low high : Char)
  | digits
  | blanks
  | wordChars
  /-- Anything but a newline. -/
  | inLine
  | union (parts : List CharSet)
  | complement (part : CharSet)

def CharSet.contains (c : Char) : CharSet → Bool
  | only d => c == d
  | range low high => low ≤ c && c ≤ high
  | digits => isDigit c
  | blanks => isBlank c
  | wordChars => isWord c
  | inLine => c != '\n'
  | union parts => containsSome c parts
  | complement part => !part.contains c
where
  /-- Whether a character belongs to one of several sets. -/
  containsSome (c : Char) : List CharSet → Bool
    | [] => false
    | part :: rest => part.contains c || containsSome c rest

/-- Whether a character belongs to a set in some case. A set that is a
complement takes the case into account on the inside. -/
def CharSet.matches (anyCase : Bool) (c : Char) : CharSet → Bool
  | complement part => !part.matches anyCase c
  | part =>
      part.contains c || (anyCase && (part.contains (toSmall c) || part.contains (toCapital c)))

inductive Pattern where
  | empty
  | one (set : CharSet)
  /-- The start of the text. -/
  | atStart
  /-- The end of the text, or the newline that ends it. -/
  | atEnd
  /-- The very end of the text. -/
  | atVeryEnd
  /-- A place between a word character and something else, or any other place
  if `expected` is false. A text without characters has neither. -/
  | boundary (expected : Bool)
  | seq (first second : Pattern)
  | either (left right : Pattern)
  /-- At least `least` times, and at most `most` times if that is given. -/
  | repeated (body : Pattern) (least : Nat) (most : Option Nat)

namespace Pattern

/-- The positions that some number of steps from given ones leads to, at most
`rounds`. -/
def reach (step : Nat → List Nat) : (rounds : Nat) → (found fresh : List Nat) → List Nat
  | 0, found, _ => found
  | rounds + 1, found, fresh =>
      let next := ((fresh.flatMap step).filter fun i => !found.contains i).eraseDups
      if next.isEmpty then found else reach step rounds (found ++ next) next

/-- The positions that exactly `count` steps from given ones lead to. -/
def advance (step : Nat → List Nat) : (count : Nat) → List Nat → List Nat
  | 0, positions => positions
  | count + 1, positions =>
      match (positions.flatMap step).eraseDups with
      | [] => []
      | next => advance step count next

def wordAt (text : Array Char) (i : Nat) : Bool := (text[i]?.map isWord).getD false

/-- Whether a position of a text lies between a word character and something
else. -/
def isBoundary (text : Array Char) (i : Nat) : Bool :=
  (if i = 0 then false else wordAt text (i - 1)) != wordAt text i

/-- The positions of a text at which a match that starts at a position can
end. -/
def ends (anyCase : Bool) (text : Array Char) : Pattern → Nat → List Nat
  | empty, i => [i]
  | one set, i =>
      match text[i]? with
      | some c => if set.matches anyCase c then [i + 1] else []
      | none => []
  | atStart, i => if i = 0 then [i] else []
  | atEnd, i =>
      if i = text.size ∨ (i + 1 = text.size ∧ text[i]? = some '\n') then [i] else []
  | atVeryEnd, i => if i = text.size then [i] else []
  | boundary expected, i =>
      if 0 < text.size ∧ isBoundary text i = expected then [i] else []
  | seq first second, i => (ends anyCase text first i).flatMap (ends anyCase text second)
  | either left right, i => ends anyCase text left i ++ ends anyCase text right i
  | repeated body least most, i =>
      let step := ends anyCase text body
      let start := advance step least [i]
      let rounds := match most with
        | some most => most - least
        | none => text.size + 1
      reach step rounds start start

end Pattern

end KernelLaunch.Text
