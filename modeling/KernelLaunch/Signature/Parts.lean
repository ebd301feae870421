import KernelLaunch.Text.Blank

/-!
The parts of a parameter list: the list is cut at the commas that stand in no
bracket, and each part has its words separated by single spaces.
-/

namespace KernelLaunch.Signature

open Text

/-- How a character changes the number of open brackets. Round and square
brackets count together. -/
def bracketStep (c : Char) : Int :=
  if c = '(' ∨ c = '[' then 1 else if c = ')' ∨ c = ']' then -1 else 0

/-- The raw parts of a parameter list, cut at the commas at depth zero. The
depth becomes negative after a stray closing bracket. -/
def rawParts : (depth : Int) → List Char → List (List Char)
  | _, [] => [[]]
  | depth, c :: rest =>
      let depth := depth + bracketStep c
      if c = ',' ∧ depth = 0 then [] :: rawParts depth rest
      else match rawParts depth rest with
        | [] => [[c]]
        | part :: more => (c :: part) :: more

/-- The declarations of a parameter list. An empty list and the single word
`void` declare nothing. -/
def parts (signature : String) : List String :=
  let all := (rawParts 0 signature.toList).map collapse
  if all = [[]] ∨ all = ["void".toList] then [] else all.map String.ofList

end KernelLaunch.Signature
