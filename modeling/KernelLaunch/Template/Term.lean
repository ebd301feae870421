import KernelLaunch.Error
import KernelLaunch.Text.Identifier

/-!
Terms of template expressions. A term is one word: the name of a value, or a constant.
Keywords of the expression syntax name nothing.
-/

namespace KernelLaunch.Template

open Host Text

inductive Term where
  | name (name : String)
  | constant (v : Value)

/-- Keywords of expressions. -/
def grammarWords : List String :=
  ["and", "as", "assert", "async", "await", "class", "def", "del", "elif", "else", "except",
    "finally", "for", "from", "global", "if", "import", "in", "is", "lambda", "nonlocal", "not",
    "or", "try", "while", "with"]

/-- Keywords that are whole statements. -/
def statementWords : List String := ["break", "continue", "pass", "raise", "return", "yield"]

/-- Whether a word is a keyword. -/
def isReserved (word : String) : Bool :=
  grammarWords.contains word || statementWords.contains word

/-- The integer literal of a word. Leading zeros are allowed for zero only. -/
def numeral? (word : List Char) : Option Nat :=
  if word.all (·.toNat < 128) then
    match digits? word with
    | some (0 :: rest) => if rest.all (· == 0) then some 0 else none
    | some digits => some (ofDigits digits)
    | none => none
  else none

def Term.ofWord? (word : String) : Option Term :=
  match word with
  | "None" => some (.constant .absent)
  | "False" => some (.constant (.truth false))
  | "True" => some (.constant (.truth true))
  | _ =>
      if isReserved word then none
      else match identifier? word.toList with
        | some spelled => some (.name spelled)
        | none => (numeral? word.toList).map fun n => .constant (.int n)

def name? (word : String) : Option String :=
  match Term.ofWord? word with
  | some (.name spelled) => some spelled
  | _ => none

/-- The names that a term looks up. -/
def Term.used : Term → List String
  | .name spelled => [spelled]
  | .constant _ => []

end KernelLaunch.Template
