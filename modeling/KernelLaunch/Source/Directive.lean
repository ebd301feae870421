import KernelLaunch.Text.Lines

/-!
Removal of preprocessor directives. A directive is dropped and not expanded, so
a kernel hidden by conditional compilation is still seen.
-/

namespace KernelLaunch.Source

open Text

/-- A line that starts a preprocessor directive: its first visible character is a number
sign. -/
def opensDirective (line : List Char) : Bool :=
  (trimLeft line).head? == some '#'

/-- A line with a line continuation: its last visible character is a backslash. -/
def isContinued (line : List Char) : Bool :=
  (trimRight line).getLast? == some '\\'

/-- The lines outside directives. `inside` says that the first line continues a
directive. -/
def keptLines : (inside : Bool) → List (List Char) → List (List Char)
  | _, [] => []
  | inside, line :: rest =>
      if inside || opensDirective line then keptLines (isContinued line) rest
      else line :: keptLines false rest

/-- A source without its directives and the lines that continue them. -/
def stripDirectives (cs : List Char) : List Char :=
  unlines (keptLines false (lines cs))

end KernelLaunch.Source
