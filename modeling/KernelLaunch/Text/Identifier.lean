import KernelLaunch.Text.Digit
import KernelLaunch.Text.Word

/-!
Identifiers: words that can name something. A word may hold numerals of every
kind, but an identifier holds none besides decimal digits, and does not begin
with one. Letters and digits that differ from the basic ones in style alone,
such as mathematical and full-width ones, spell the same identifier as these.
-/

namespace KernelLaunch.Text

/-- Numerals that are no decimal digits: fractions, superscripts, numbers in
circles and the like. -/
def numeralRanges : Array (Nat × Nat) :=
  #[(178, 179), (185, 185), (188, 190), (890, 890), (2548, 2553), (2930, 2935), (3056, 3058),
    (3192, 3198), (3416, 3422), (3440, 3448), (3882, 3891), (4978, 4988), (6128, 6137),
    (8304, 8304), (8308, 8313), (8320, 8329), (8528, 8543), (8585, 8585), (9312, 9371),
    (9450, 9471), (10102, 10131), (11517, 11517), (11823, 11823), (12690, 12693), (12832, 12841),
    (12872, 12879), (12881, 12895), (12928, 12937), (12977, 12991), (43056, 43061), (64606, 64611),
    (65018, 65019), (65136, 65136), (65138, 65138), (65140, 65140), (65142, 65142), (65144, 65144),
    (65146, 65146), (65148, 65148), (65150, 65150), (65799, 65843), (65909, 65912), (65930, 65931),
    (66273, 66299), (66336, 66339), (67672, 67679), (67705, 67711), (67751, 67759), (67835, 67839),
    (67862, 67867), (68028, 68029), (68032, 68047), (68050, 68095), (68160, 68168), (68221, 68222),
    (68253, 68255), (68331, 68335), (68440, 68447), (68472, 68479), (68521, 68527), (68858, 68863),
    (69216, 69246), (69405, 69414), (69457, 69460), (69573, 69579), (69714, 69733), (70113, 70132),
    (71482, 71483), (71914, 71922), (72794, 72812), (73664, 73684), (93019, 93025), (93824, 93846),
    (119520, 119539), (119648, 119672), (125127, 125135), (126065, 126123), (126125, 126127),
    (126129, 126132), (126209, 126253), (126255, 126269), (127232, 127244)]

/-- A numeral that is no decimal digit. -/
def isNumeral (c : Char) : Bool := 128 ≤ c.toNat && inRanges numeralRanges c.toNat

def isIdentifierStart (c : Char) : Bool := isWord c && !isDigit c && !isNumeral c

/-- A character that can go on with an identifier: one of a word, the middle
dot, or a mark that is put on the letter before it. -/
def isIdentifierRest (c : Char) : Bool :=
  (isWord c && !isNumeral c) || c.toNat == 183 || (768 ≤ c.toNat && c.toNat ≤ 879)

def isIdentifier : List Char → Bool
  | [] => false
  | c :: rest => isIdentifierStart c && rest.all isIdentifierRest

/-- The basic letter or digit of one that differs in style. The mathematical
alphabets and digits stand in blocks, one style after the other. -/
def basicForm (c : Char) : Char :=
  let n := c.toNat
  if 65296 ≤ n && n ≤ 65370 then Char.ofNat (n - 65248)
  else if 119808 ≤ n && n ≤ 120483 then
    let place := (n - 119808) % 52
    Char.ofNat (if place < 26 then 65 + place else 71 + place)
  else if 120782 ≤ n && n ≤ 120831 then Char.ofNat (48 + (n - 120782) % 10)
  else c

def identifier? (cs : List Char) : Option String :=
  if isIdentifier cs then some (String.ofList (cs.map basicForm)) else none

end KernelLaunch.Text
