import KernelLaunch.Text.Blank

/-!
Lines of a text. Only the newline character ends a line here; the other two
customary line ends are turned into it when a file is read as text.
-/

namespace KernelLaunch.Text

/-- The lines of a text, cut at newlines. -/
def lines (cs : List Char) : List (List Char) := splitAt '\n' cs

/-- Lines put together with newlines between them. -/
def unlines (ls : List (List Char)) : List Char := joinWith ['\n'] ls

/-- Turns a return, and a return with its newline, into one newline. -/
def normalizeNewlines : List Char → List Char
  | [] => []
  | '\r' :: '\n' :: rest => '\n' :: normalizeNewlines rest
  | '\r' :: rest => '\n' :: normalizeNewlines rest
  | c :: rest => c :: normalizeNewlines rest

/-- The text with each line preceded by its number, counted from one. -/
def numbered (s : String) : String :=
  let number (line : List Char) (index : Nat) := (toString (index + 1)).toList ++ ':' :: line
  String.ofList (unlines ((lines s.toList).mapIdx fun index line => number line index))

end KernelLaunch.Text
