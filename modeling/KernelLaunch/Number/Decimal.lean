import KernelLaunch.Number.Binary

/-!
Decimal text of a floating-point number: the fewest digits that no other number
of the precision reads as, and of those the ones nearest to the number.
-/

namespace KernelLaunch.Number

-- Powers are those of numbers, also beside the powers of a monoid.
attribute [local instance (high)] instPowNat

/-- The number of decimal digits of an integer, none for zero. -/
def digitCount (n : Nat) : Nat := if n = 0 then 0 else (Nat.toDigits 10 n).length

/-- The greatest `k` with `10 ^ k * den ≤ num`, for positive numbers. -/
def floorLog10 (num den : Nat) : Int :=
  if den ≤ num then (digitCount (num / den) : Int) - 1
  else -(digitCount ((den + num - 1) / num - 1) : Int)

/-- A number `m * 2 ^ q` as a fraction. -/
def ratioOf (m : Nat) (q : Int) : Nat × Nat :=
  if 0 ≤ q then (m * 2 ^ q.toNat, 1) else (m, 2 ^ (-q).toNat)

/-- The interval of reals that are rounded to `m * 2 ^ q`: its ends in units of
`2 ^ (q - 2)`, and whether the ends belong to it. Below a power of two the
numbers lie twice as close, except among the smallest ones. -/
def rounding (p : Precision) (m : Nat) (q : Int) : Nat × Nat × Bool :=
  let narrow := m = 2 ^ p.fractionBits ∧ p.leastExponent < q
  (if narrow then 4 * m - 1 else 4 * m - 2, 4 * m + 2, m % 2 = 0)

/-- Whether the decimal `c * 10 ^ g` is rounded to `m * 2 ^ q`. -/
def readsBack (p : Precision) (m : Nat) (q : Int) (c : Nat) (g : Int) : Bool :=
  let (low, high, closed) := rounding p m q
  let (unit, unitDen) := ratioOf 1 (q - 2)
  let value := c * 10 ^ g.toNat * unitDen
  let scale := 10 ^ (-g).toNat * unit
  if closed then low * scale ≤ value && value ≤ high * scale
  else low * scale < value && value < high * scale

/-- The `n`-digit decimal that is rounded to `m * 2 ^ q`, if there is one: of
the two neighbours on the grid of `n` digits the nearer one, the even one if
they are equally near. -/
def withDigits? (p : Precision) (m : Nat) (q : Int) (n : Nat) : Option (Nat × Int) :=
  let (num, den) := ratioOf m q
  let g := floorLog10 num den - n + 1
  let top := num * 10 ^ (-g).toNat
  let grid := den * 10 ^ g.toNat
  let below := top / grid
  let rest := top % grid
  let first := if grid < 2 * rest ∨ (grid = 2 * rest ∧ below % 2 = 1) then below + 1 else below
  let second := if first = below then below + 1 else below
  if readsBack p m q first g then some (first, g)
  else if readsBack p m q second g then some (second, g)
  else none

/-- The shortest decimal `c * 10 ^ g` that is rounded to `m * 2 ^ q`. Seventeen
digits always suffice. -/
def shortest (p : Precision) (m : Nat) (q : Int) : Nat × Int :=
  ((List.range 17).findSome? fun n => withDigits? p m q (n + 1)).getD (m, q)

/-- Where the text of a number changes its form: the least and the greatest
power of ten of a first digit that is written without an exponent. -/
structure DecimalForm where
  leastPlain : Int
  greatestPlain : Int

/-- Numbers are written without an exponent from one ten-thousandth up to ten
to the sixteenth. -/
def plainForm : DecimalForm := ⟨-4, 15⟩

/-- The text of `c * 10 ^ g`, with a point or an exponent in every case. -/
def decimalText (form : DecimalForm) (c : Nat) (g : Int) : List Char :=
  let all := Nat.toDigits 10 c
  let digits := (all.reverse.dropWhile (· == '0')).reverse
  let power : Int := g + all.length - 1
  if form.leastPlain ≤ power ∧ power ≤ form.greatestPlain then
    if power < 0 then "0.".toList ++ List.replicate (-power - 1).toNat '0' ++ digits
    else
      let whole := power.toNat + 1
      let padded := digits ++ List.replicate (whole - digits.length) '0'
      let tail := padded.drop whole
      padded.take whole ++ '.' :: (if tail.isEmpty then ['0'] else tail)
  else
    let tail := digits.drop 1
    let exponent := Nat.toDigits 10 power.natAbs
    digits.take 1 ++ (if tail.isEmpty then [] else '.' :: tail) ++
      'e' :: (if power < 0 then '-' else '+') ::
        (List.replicate (2 - exponent.length) '0' ++ exponent)

/-- The text of a floating-point number. -/
def Binary.text {p : Precision} (x : Binary p) : String :=
  let sign (negative : Bool) (s : List Char) := if negative then '-' :: s else s
  match x.reading with
  | .undefined => "nan"
  | .infinite negative => String.ofList (sign negative "inf".toList)
  | .finite negative 0 _ => String.ofList (sign negative "0.0".toList)
  | .finite negative m q =>
      let (c, g) := shortest p m q
      String.ofList (sign negative (decimalText plainForm c g))

end KernelLaunch.Number
