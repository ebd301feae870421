/-!
Binary floating-point numbers of three precisions, kept as bit patterns. Every
operation goes through exact integers and rounds once: to the nearest number,
and to the one with an even fraction when two are equally near.
-/

namespace KernelLaunch.Number

-- Powers are those of numbers, also beside the powers of a monoid.
attribute [local instance (high)] instPowNat

/-- The precisions that an element can have. -/
inductive Precision where
  | half
  | single
  | double
  deriving DecidableEq, Repr

namespace Precision

/-- The stored bits of the fraction. -/
def fractionBits : Precision → Nat
  | half => 10
  | single => 23
  | double => 52

def exponentBits : Precision → Nat
  | half => 5
  | single => 8
  | double => 11

/-- All bits of a number: sign, exponent and fraction. -/
def width : Precision → Nat
  | half => 16
  | single => 32
  | double => 64

/-- The exponent of the unit of the smallest numbers. -/
def leastExponent (p : Precision) : Int :=
  2 - 2 ^ (p.exponentBits - 1) - p.fractionBits

/-- The pattern of infinity, which follows that of the largest number. -/
def infinity (p : Precision) : Nat := (2 ^ p.exponentBits - 1) * 2 ^ p.fractionBits

def signWeight (p : Precision) : Nat := 2 ^ (p.width - 1)

end Precision

/-- The quotient rounded to the nearest integer, a half to the even one. -/
def roundDiv (num den : Nat) : Nat :=
  let quotient := num / den
  let rest := num % den
  if den < 2 * rest ∨ (den = 2 * rest ∧ quotient % 2 = 1) then quotient + 1 else quotient

/-- The greatest `e` with `2 ^ e * den ≤ num`, for positive numbers. -/
def floorLog2 (num den : Nat) : Int :=
  let guess : Int := (Nat.log2 num : Int) - Nat.log2 den
  let reached :=
    if 0 ≤ guess then den * 2 ^ guess.toNat ≤ num else den ≤ num * 2 ^ (-guess).toNat
  if reached then guess else guess - 1

/-- The pattern, without sign, of the number nearest to `num / den`. Patterns
of consecutive numbers are consecutive, so rounding up may carry into the
exponent; from halfway above the largest number on, the result is infinity. -/
def nearestPattern (p : Precision) (num den : Nat) : Nat :=
  if num = 0 then 0
  else
    let e := max p.leastExponent (floorLog2 num den - p.fractionBits)
    let units :=
      if 0 ≤ e then roundDiv num (den * 2 ^ e.toNat) else roundDiv (num * 2 ^ (-e).toNat) den
    min p.infinity ((e - p.leastExponent).toNat * 2 ^ p.fractionBits + units)

/-- A floating-point number. -/
structure Binary (p : Precision) where
  bits : BitVec p.width
  deriving DecidableEq, Repr

/-- What a pattern stands for: `m * 2 ^ q` with a sign, or no number. -/
inductive Reading where
  | undefined
  | infinite (negative : Bool)
  | finite (negative : Bool) (m : Nat) (q : Int)
  deriving DecidableEq, Repr

namespace Binary

variable {p : Precision}

/-- The number with a sign and the pattern of its size. -/
def ofPattern (p : Precision) (negative : Bool) (pattern : Nat) : Binary p :=
  ⟨BitVec.ofNat p.width ((if negative then p.signWeight else 0) + pattern)⟩

/-- The number nearest to a fraction with a sign. -/
def ofRatio (p : Precision) (negative : Bool) (num den : Nat) : Binary p :=
  ofPattern p negative (nearestPattern p num den)

/-- The number nearest to `m * 2 ^ q` with a sign. -/
def ofScaled (p : Precision) (negative : Bool) (m : Nat) (q : Int) : Binary p :=
  if 0 ≤ q then ofRatio p negative (m * 2 ^ q.toNat) 1
  else ofRatio p negative m (2 ^ (-q).toNat)

/-- The number nearest to an integer. -/
def ofInt (p : Precision) (n : Int) : Binary p := ofRatio p (n < 0) n.natAbs 1

/-- The pattern used for results that are no number. -/
def undefined (p : Precision) : Binary p :=
  ofPattern p false (p.infinity + 2 ^ (p.fractionBits - 1))

/-- Infinity with a sign. -/
def infinite (p : Precision) (negative : Bool) : Binary p := ofPattern p negative p.infinity

/-- The pattern of the size. -/
def pattern (x : Binary p) : Nat := x.bits.toNat % p.signWeight

def isNegative (x : Binary p) : Bool := p.signWeight ≤ x.bits.toNat

/-- What a number stands for. -/
def reading (x : Binary p) : Reading :=
  let exponent := x.pattern / 2 ^ p.fractionBits
  let fraction := x.pattern % 2 ^ p.fractionBits
  if x.pattern = p.infinity then .infinite x.isNegative
  else if p.infinity < x.pattern then .undefined
  else if exponent = 0 then .finite x.isNegative fraction p.leastExponent
  else .finite x.isNegative (2 ^ p.fractionBits + fraction) (p.leastExponent + exponent - 1)

/-- A number in some precision. In its own it stays as it is, also if it is no
number. -/
def convert (target : Precision) (x : Binary p) : Binary target :=
  if h : p = target then h ▸ x
  else match x.reading with
    | .undefined => .undefined target
    | .infinite negative => .infinite target negative
    | .finite negative m q => ofScaled target negative m q

@[simp] theorem convert_self (x : Binary p) : x.convert p = x := by
  simp [convert]

/-- The integer part, toward zero; `none` if there is none. -/
def truncated? (x : Binary p) : Option Int :=
  match x.reading with
  | .finite negative m q =>
      let size : Nat := if 0 ≤ q then m * 2 ^ q.toNat else m / 2 ^ (-q).toNat
      some (if negative then -(size : Int) else size)
  | _ => none

def isIntegral (x : Binary p) : Bool :=
  match x.reading with
  | .finite _ m q => 0 ≤ q || m % 2 ^ (-q).toNat == 0
  | _ => false

/-- How a finite number `m * 2 ^ q` compares with an integer. -/
private def compareScaled (negative : Bool) (m : Nat) (q : Int) (n : Int) : Ordering :=
  let size : Int := if negative then -(m : Int) else m
  if 0 ≤ q then compare (size * 2 ^ q.toNat) n else compare size (n * 2 ^ (-q).toNat)

/-- How a number compares with an integer; `none` if it is no number. -/
def compareInt? (x : Binary p) (n : Int) : Option Ordering :=
  match x.reading with
  | .undefined => none
  | .infinite negative => some (if negative then .lt else .gt)
  | .finite negative m q => some (compareScaled negative m q n)

/-- A number with the other sign. -/
def neg (x : Binary p) : Binary p := ofPattern p (!x.isNegative) x.pattern

/-- The sum of two numbers. A sum of opposite numbers is positive zero. -/
def add (x y : Binary p) : Binary p :=
  match x.reading, y.reading with
  | .undefined, _ | _, .undefined => .undefined p
  | .infinite a, .infinite b => if a = b then x else .undefined p
  | .infinite _, _ => x
  | _, .infinite _ => y
  | .finite a m q, .finite b n r =>
      let e := min q r
      let left : Int := (if a then -(m : Int) else m) * 2 ^ (q - e).toNat
      let right : Int := (if b then -(n : Int) else n) * 2 ^ (r - e).toNat
      let sum := left + right
      if sum = 0 then ofPattern p (a && b) 0 else ofScaled p (sum < 0) sum.natAbs e

/-- The product of two numbers. -/
def mul (x y : Binary p) : Binary p :=
  match x.reading, y.reading with
  | .undefined, _ | _, .undefined => .undefined p
  | .infinite a, .infinite b => .infinite p (a != b)
  | .infinite a, .finite b n _ => if n = 0 then .undefined p else .infinite p (a != b)
  | .finite a m _, .infinite b => if m = 0 then .undefined p else .infinite p (a != b)
  | .finite a m q, .finite b n r => ofScaled p (a != b) (m * n) (q + r)

/-- Whether a number is zero, of either sign. -/
def isZero (x : Binary p) : Bool := x.pattern == 0

end Binary

end KernelLaunch.Number
