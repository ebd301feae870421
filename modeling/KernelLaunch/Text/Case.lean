/-!
Upper and lower case of the letters of the first 256 code points. Letters
beyond them have no case here.
-/

namespace KernelLaunch.Text

/-- A capital letter with a small one 32 code points after it. -/
def isCapital (c : Char) : Bool :=
  let n := c.toNat
  (65 ≤ n && n ≤ 90) || (192 ≤ n && n ≤ 222 && n != 215)

/-- A small letter with a capital one 32 code points before it. -/
def isSmall (c : Char) : Bool :=
  let n := c.toNat
  (97 ≤ n && n ≤ 122) || (224 ≤ n && n ≤ 254 && n != 247)

/-- The small letter of a capital one; any other character stays. -/
def toSmall (c : Char) : Char := if isCapital c then Char.ofNat (c.toNat + 32) else c

/-- The capital letter of a small one; any other character stays. -/
def toCapital (c : Char) : Char := if isSmall c then Char.ofNat (c.toNat - 32) else c

end KernelLaunch.Text
