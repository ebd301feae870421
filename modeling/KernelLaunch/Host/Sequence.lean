import KernelLaunch.Error

/-!
Values as sequences: one value or several where a list is expected, and
sequences repeated a number of times.
-/

namespace KernelLaunch.Host

-- Powers are those of numbers, also beside the powers of a monoid.
attribute [local instance (high)] instPowNat

/-- The items of a value that stands for a list. A text is one item, and the
absent value stands for the empty list. -/
def Value.asList (v : Value) : Except Failure (List Value) :=
  match v with
  | .atom .absent => .ok []
  | .atom _ => .ok [v]
  | .array _ | .list _ => v.items

/-- How often an atom repeats a sequence. Only integers do. -/
def Atom.repetitions : Atom → Except Failure Int
  | .truth b => .ok (cond b 1 0)
  | .int n => .ok n
  | .element (.integer signed _) b => .ok (Storage.integerValue signed b)
  | _ => .error .wrongKind

/-- The greatest index. -/
def maxPosition : Nat := 2 ^ (63 : Nat) - 1

/-- The most items that are kept in memory. -/
def maxKept : Nat := 2 ^ (32 : Nat)

/-- A sequence repeated `n` times. The count has to be in the range of an index; a negative
one gives the empty sequence. -/
def repeated {α : Type} (n : Int) (items : List α) : Except Failure (List α) :=
  if n < -maxPosition - 1 ∨ maxPosition < n then .error .outOfRange
  else if maxKept < n.toNat * items.length then .error .outOfMemory
  else if items.isEmpty then .ok []
  else .ok (List.replicate n.toNat items).flatten

/-- A text repeated `n` times. Its length has to be in the range of an index. -/
def repeatedText (n : Int) (s : String) : Except Failure String :=
  if maxPosition < n.toNat * s.length then .error .outOfRange
  else (repeated n s.toList).map String.ofList

end KernelLaunch.Host
