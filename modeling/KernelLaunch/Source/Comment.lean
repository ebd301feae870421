/-!
Comment removal. The text is scanned once with the current region as state: code, a line
comment, a block comment, or a literal. Comment openers inside literals are text, and quotes
inside comments do not count.
-/

namespace KernelLaunch.Source

/-- What the next character of a source belongs to. -/
inductive Region where
  | code
  | lineComment
  | blockComment
  | literal (quote : Char)
  deriving DecidableEq, Repr

/-- The region after a character that opens no comment, read in code. -/
def Region.ofCode (c : Char) : Region :=
  if c = '"' ∨ c = '\'' then .literal c else .code

/-- The region after a plain character of a literal. A literal ends at its own
quote, and an unfinished one ends with its line. -/
def Region.ofLiteral (quote c : Char) : Region :=
  if c = quote ∨ c = '\n' then .code else .literal quote

/-- The text without comments, read from a region on. A line comment goes up to
its newline, which stays; a block comment becomes one space and the newlines it
held. Both, and literals, may lack their end. -/
def stripFrom : Region → List Char → List Char
  | _, [] => []
  | .code, '/' :: '/' :: rest => stripFrom .lineComment rest
  | .code, '/' :: '*' :: rest => ' ' :: stripFrom .blockComment rest
  | .code, c :: rest => c :: stripFrom (.ofCode c) rest
  | .lineComment, '\n' :: rest => '\n' :: stripFrom .code rest
  | .lineComment, _ :: rest => stripFrom .lineComment rest
  | .blockComment, '*' :: '/' :: rest => stripFrom .code rest
  | .blockComment, '\n' :: rest => '\n' :: stripFrom .blockComment rest
  | .blockComment, _ :: rest => stripFrom .blockComment rest
  | .literal quote, '\\' :: c :: rest => '\\' :: c :: stripFrom (.literal quote) rest
  | .literal quote, c :: rest => c :: stripFrom (.ofLiteral quote c) rest

/-- A source without its comments. -/
def stripComments (cs : List Char) : List Char := stripFrom .code cs

end KernelLaunch.Source
