/-!
Decimal digits of any script. Each script has its ten digits in a row, so the
table lists the zeros only.
-/

namespace KernelLaunch.Text

/-- The zeros of the scripts outside the first 128 code points. -/
def digitZeros : Array Nat :=
  #[1632, 1776, 1984, 2406, 2534, 2662, 2790, 2918, 3046, 3174, 3302, 3430, 3558, 3664, 3792,
    3872, 4160, 4240, 6112, 6160, 6470, 6608, 6784, 6800, 6992, 7088, 7232, 7248, 42528, 43216,
    43264, 43472, 43504, 43600, 44016, 65296, 66720, 68912, 69734, 69872, 69942, 70096, 70384,
    70736, 70864, 71248, 71360, 71472, 71904, 72016, 72784, 73040, 73120, 92768, 92864, 93008,
    120782, 120792, 120802, 120812, 120822, 123200, 123632, 125264, 130032]

def digitValue? (c : Char) : Option Nat :=
  if c.toNat < 128 then
    if '0' ≤ c && c ≤ '9' then some (c.toNat - 48) else none
  else
    (digitZeros.find? fun first => first ≤ c.toNat && c.toNat < first + 10).map (c.toNat - ·)

/-- A decimal digit of some script. -/
def isDigit (c : Char) : Bool := (digitValue? c).isSome

/-- The digits of a number without sign, one underscore allowed between two
digits; `none` if the text is anything else. -/
def digits? : List Char → Option (List Nat)
  | [] => none
  | [c] => (digitValue? c).map ([·])
  | c :: '_' :: rest => do (← digitValue? c) :: (← digits? rest)
  | c :: rest => do (← digitValue? c) :: (← digits? rest)

/-- The number that a row of digits writes. -/
def ofDigits (ds : List Nat) : Nat := ds.foldl (fun n d => 10 * n + d) 0

end KernelLaunch.Text
