import KernelLaunch.Number.Binary
import KernelLaunch.Text.Blank
import KernelLaunch.Text.Digit

/-!
Parsing of numerals. Decimal digits of any script are allowed, with single underscores
between digits and white space around the numeral. Floating-point numerals round once.
-/

namespace KernelLaunch.Number

open Text

-- Powers are those of numbers, also beside the powers of a monoid.
attribute [local instance (high)] instPowNat

/-- The plain character that a character of a numeral stands for: a space for
each blank of another script, and the digit for a digit of another script. -/
def plainChar? (c : Char) : Option Char :=
  if c.toNat < 127 then some c
  else if isBlank c then some ' '
  else (digitValue? c).map fun d => Char.ofNat (48 + d)

/-- Plain blanks. Separator marks are none. -/
def isPadding (c : Char) : Bool := c == ' ' || ('\t' ≤ c && c ≤ '\r')

/-- The plain characters of a numeral without the padding around it. -/
def unpadded? (s : String) : Option (List Char) := do
  let cs ← s.toList.mapM plainChar?
  some ((cs.dropWhile isPadding).reverse.dropWhile isPadding).reverse

/-- The sign of a numeral, whether it is a minus, and what follows it. -/
def splitSign : List Char → Bool × List Char
  | '-' :: rest => (true, rest)
  | '+' :: rest => (false, rest)
  | cs => (false, cs)

/-- The most digits that the numeral of an integer may have. -/
def maxIntegerDigits : Nat := 4300

/-- Parses an integer. -/
def integerOfText? (s : String) : Option Int := do
  let (negative, cs) := splitSign (← unpadded? s)
  let ds ← digits? cs
  if maxIntegerDigits < ds.length then none
  else
    let size : Int := ofDigits ds
    some (if negative then -size else size)

def isPlainDigit (c : Char) : Bool := '0' ≤ c && c ≤ '9'

/-- The characters of a numeral without its underscores, each of which has to
stand between two digits. -/
def withoutUnderscores? : List Char → Option (List Char)
  | [] => some []
  | a :: '_' :: b :: rest =>
      if isPlainDigit a && isPlainDigit b then (withoutUnderscores? (b :: rest)).map (a :: ·)
      else none
  | c :: rest => if c == '_' then none else (withoutUnderscores? rest).map (c :: ·)

/-- The exponent after the digits of a numeral: zero if there is none. -/
def exponent? : List Char → Option Int
  | [] => some 0
  | c :: rest =>
      if c == 'e' || c == 'E' then
        let (negative, cs) := splitSign rest
        if cs.isEmpty || !cs.all isPlainDigit then none
        else
          let size : Int := ofDigits (cs.filterMap digitValue?)
          some (if negative then -size else size)
      else none

/-- A decimal numeral `digits * 10 ^ exponent`, without its sign. There is a
digit before the point or after it. -/
def decimal? (cs : List Char) : Option (List Nat × Int) := do
  let whole := cs.takeWhile isPlainDigit
  let rest := cs.dropWhile isPlainDigit
  let (fraction, rest) := match rest with
    | '.' :: rest => (rest.takeWhile isPlainDigit, rest.dropWhile isPlainDigit)
    | rest => ([], rest)
  if whole.isEmpty && fraction.isEmpty then none
  else
    let exponent ← exponent? rest
    some ((whole ++ fraction).filterMap digitValue?, exponent - fraction.length)

/-- The number nearest to `digits * 10 ^ exponent`. All numbers lie between the
powers of ten in which the first digit is looked for, so beyond them nothing has
to be worked out. -/
def ofDecimal (p : Precision) (negative : Bool) (digits : List Nat) (exponent : Int) :
    Binary p :=
  let digits := digits.dropWhile (· == 0)
  let power : Int := exponent + digits.length
  let size := ofDigits digits
  if digits.isEmpty || power < -400 then .ofPattern p negative 0
  else if 400 < power then .infinite p negative
  else if 0 ≤ exponent then .ofRatio p negative (size * 10 ^ exponent.toNat) 1
  else .ofRatio p negative size (10 ^ (-exponent).toNat)

/-- Parses a floating-point number. The names of infinity and of the undefined number are not
case sensitive. -/
def realOfText? (s : String) : Option (Binary .double) := do
  let (negative, cs) := splitSign (← withoutUnderscores? (← unpadded? s))
  let name := String.ofList (cs.map Char.toLower)
  if name == "inf" || name == "infinity" then some (.infinite .double negative)
  else if name == "nan" then some (.undefined .double)
  else
    let (digits, exponent) ← decimal? cs
    some (ofDecimal .double negative digits exponent)

end KernelLaunch.Number
