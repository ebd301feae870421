import KernelLaunch.Template.Term

/-!
Template lexer. A template is text with `${...}` expressions, and with control lines that
begin with a percent sign: `% if`, `% elif`, `% else`, `% for` and the lines that end them.
Comments, either lines after `##` or `<%doc>` blocks, give no token.
-/

namespace KernelLaunch.Template

open Host Text

/-- The iterable of a `% for` line. -/
inductive Source where
  /-- The items of a value. -/
  | items (t : Term)
  /-- The result of a call, such as `range(n)`. -/
  | call (function : Term) (args : List Term)

inductive Token where
  | text (cs : List Char)
  | value (t : Term)
  /-- An `% if` line. -/
  | choice (condition : Term)
  /-- An `% elif` line. -/
  | alternative (condition : Term)
  /-- A `% for` line, with the loop variable and the iterable. -/
  | loop (index : String) (source : Source)
  | otherwise
  /-- An `% endif` or `% endfor` line. -/
  | finish (keyword : String)
  /-- An expression that parses, but is a statement and has no value. -/
  | valueless
  /-- A lexer error, which ends the scan. -/
  | broken (why : Failure)

/-- Whether a character is white space within the parentheses of an expression. -/
def isGap (c : Char) : Bool :=
  c == ' ' || c == '\t' || c == '\x0c' || c == '\r' || c == '\n'

/-- Whether a character continues a word. -/
def joins (c : Char) : Bool := isWord c || 128 ≤ c.toNat

/-- The token of a `${...}` expression, from the text in its braces. An empty expression
inserts the empty text. Leading blanks of every kind are stripped first, but one that is no
separator of expressions makes the expression a syntax error. -/
def insertion (cs : List Char) : Token :=
  let code := trimLeft cs
  let word := String.ofList (code.takeWhile joins)
  if !(code.dropWhile joins).all isGap then .broken .templateStructure
  else
    let token := if code.isEmpty then some (Token.value (.constant (.text "")))
      else if statementWords.contains word then some .valueless
      else (Term.ofWord? word).map .value
    match token with
    | none => .broken .templateStructure
    | some token => if (cs.takeWhile isBlank).all isGap then token else .valueless

/-- The lexemes of a control line: words and other characters, separated by spaces,
tabs, form feeds and escaped newlines. The accumulator `word` holds the characters of
the current word. -/
def lexemes : (word : List Char) → List Char → List String
  | [], [] => []
  | word, [] => [String.ofList word]
  | [], '\\' :: '\n' :: rest => lexemes [] rest
  | word, '\\' :: '\n' :: rest => String.ofList word :: lexemes [] rest
  | [], '\\' :: '\r' :: '\n' :: rest => lexemes [] rest
  | word, '\\' :: '\r' :: '\n' :: rest => String.ofList word :: lexemes [] rest
  | word, c :: rest =>
      if joins c then lexemes (word ++ [c]) rest
      else
        let rest := if c == ' ' || c == '\t' || c == '\x0c' then lexemes [] rest
          else String.ofList [c] :: lexemes [] rest
        if word.isEmpty then rest else String.ofList word :: rest

/-- The arguments of a call, up to its closing parenthesis. -/
def arguments? : List String → Option (List Term)
  | [")"] => some []
  | [t, ")"] => do return [← Term.ofWord? t]
  | t :: "," :: rest => do return (← Term.ofWord? t) :: (← arguments? rest)
  | _ => none

/-- The iterable of a loop, from lexemes such as those of `range(n)`. -/
def source? : List String → Option Source
  | [t] => (Term.ofWord? t).map .items
  | function :: "(" :: rest => do return .call (← Term.ofWord? function) (← arguments? rest)
  | _ => none

/-- The token of a `% for` line, from lexemes such as those of `i in range(n)`. -/
def loop? : List String → Option Token
  | index :: "in" :: rest => do return .loop (← name? index) (← source? rest)
  | _ => none

/-- The operand of a control line as a term; it has to be a single word. -/
def term? : List String → Option Term
  | [t] => Term.ofWord? t
  | _ => none

/-- Whether a text after a colon is blank or a comment. -/
def isRemark (cs : List Char) : Bool :=
  match trimLeft cs with
  | [] => true
  | c :: _ => c == '#'

/-- The text before the colon that ends a control line, together with the
blanks after the colon. -/
def beforeColon? : List Char → Option (List Char)
  | [] => none
  | c :: rest =>
      if c = ':' ∧ isRemark rest then some (rest.takeWhile isBlank)
      else (beforeColon? rest).map (c :: ·)

/-- The operand of a control line, between its keyword and its colon, together with the blanks
after the colon. -/
def operand? (rest : List Char) : Option (List Char) :=
  match rest with
  | [] => none
  | c :: more =>
      if c = ':' then (if isRemark more then some (more.takeWhile isBlank) else none)
      else if isBlank c then beforeColon? rest
      else none

/-- Keywords of control lines. -/
def keywords : List String :=
  ["for", "if", "while", "try", "elif", "else", "except", "with"]

/-- The token of an `if`, `elif`, `else` or `for` line. -/
def statement (keyword : String) (operand : List String) : Token :=
  let token : Option Token := match keyword with
    | "if" => (term? operand).map .choice
    | "elif" => (term? operand).map .alternative
    | "for" => loop? operand
    | "else" => if operand.isEmpty then some .otherwise else none
    | _ => none
  token.getD (.broken .templateStructure)

/-- The token of a control line, from the text after its percent sign. -/
def control (cs : List Char) : Token :=
  match cs.takeWhile isWord, cs.dropWhile isWord with
  | [], _ => .broken .templateStructure
  | 'e' :: 'n' :: 'd' :: c :: rest, _ => .finish (String.ofList (c :: rest))
  | word, rest =>
      let keyword := String.ofList word
      match operand? rest with
      | some operand =>
          if keywords.contains keyword then statement keyword (lexemes [] operand)
          else .broken .templateElement
      | none => .broken .templateElement

/-- Splits a text after its first line. A backslash before the newline continues the line, and
a carriage return elsewhere than before the newline makes it no line. -/
def line? : List Char → Option (List Char × List Char)
  | [] => some ([], [])
  | '\\' :: '\n' :: rest =>
      some (match line? rest with
        | some (l, rest) => ('\\' :: '\n' :: l, rest)
        | none => (['\\'], rest))
  | '\\' :: '\r' :: '\n' :: rest =>
      some (match line? rest with
        | some (l, rest) => ('\\' :: '\r' :: '\n' :: l, rest)
        | none => (['\\'], rest))
  | '\r' :: '\n' :: rest => some ([], rest)
  | '\r' :: _ => none
  | '\n' :: rest => some ([], rest)
  | c :: rest => (line? rest).map fun (l, rest) => (c :: l, rest)

/-- A text without the spaces and tabs at its start. -/
def afterIndent (cs : List Char) : List Char := cs.dropWhile fun c => c == ' ' || c == '\t'

/-- A control or comment line at the start of a text, and the rest. A comment
has no token. -/
def controlLine? (cs : List Char) : Option (Option Token × List Char) :=
  match afterIndent cs with
  | '%' :: '%' :: _ => none
  | '%' :: rest => (line? (afterIndent rest)).map fun (l, rest) => (some (control l), rest)
  | '#' :: '#' :: rest => (line? rest).map fun (_, rest) => (none, rest)
  | _ => none

/-- An escaped percent sign, `%%` at the start of a line, and the rest: the first of the
percent signs is dropped. -/
def percents? (cs : List Char) : Option (List Char × List Char) :=
  match cs.dropWhile isBlank with
  | '%' :: '%' :: rest =>
      some (cs.takeWhile isBlank ++ '%' :: rest.takeWhile (· == '%'), rest.dropWhile (· == '%'))
  | _ => none

/-- What follows the first occurrence of `mark` in a text. -/
def afterMark? (mark : List Char) : List Char → Option (List Char)
  | [] => none
  | c :: rest =>
      if mark.isPrefixOf (c :: rest) then some ((c :: rest).drop mark.length)
      else afterMark? mark rest

/-- The failure of a tag, from the text after its opening. A tag that is well
formed has a name that does not exist. -/
def tagFailure (cs : List Char) : Failure :=
  let isTagChar (c : Char) : Bool := isWord c || c == '.' || c == ':'
  match cs.takeWhile isTagChar, trimLeft (cs.dropWhile isTagChar) with
  | _ :: _, '>' :: _ => .templateElement
  | _ :: _, '/' :: '>' :: _ => .templateElement
  | _, _ => .templateStructure

/-- Whether the text before a character has ended a line. -/
def endsLine (before : Option Char) : Bool := before == some '\n'

/-- Whether plain text stops here: at a value, a tag or what may be a control
line. -/
def stops (before : Option Char) (cs : List Char) : Bool :=
  "$\x7b".toList.isPrefixOf cs || "<%".toList.isPrefixOf cs || "</%".toList.isPrefixOf cs ||
    (endsLine before &&
      ("%".toList.isPrefixOf (afterIndent cs) || "##".toList.isPrefixOf (afterIndent cs)))

/-- Plain text up to the next token, the last character read, and the rest. An escaped newline
ends the text and is dropped together with its backslash. -/
def plain : Option Char → List Char → List Char × Option Char × List Char
  | before, [] => ([], before, [])
  | before, c :: rest =>
      if stops before (c :: rest) then ([], before, c :: rest)
      else match c, rest with
        | '\\', '\n' :: rest => ([], some '\n', rest)
        | '\\', '\r' :: '\n' :: rest => ([], some '\n', rest)
        | _, _ =>
            let (text, last, rest) := plain (some c) rest
            (c :: text, last, rest)

/-- The tokens of a text of which `before` is the character before it. A
character where plain text stops, but nothing else begins, is skipped. At most
`fuel` tokens are read. -/
def scan : (fuel : Nat) → (before : Option Char) → List Char → List Token
  | 0, _, _ => []
  | _, _, [] => []
  | fuel + 1, before, c :: rest =>
      let cs := c :: rest
      let lineStart := before.isNone || endsLine before
      match c, rest, (if lineStart then controlLine? cs else none),
          (if lineStart then percents? cs else none) with
      | '$', '\x7b' :: more, _, _ =>
          match afterMark? ['}'] more with
          | none => [.broken .templateStructure]
          | some others =>
              insertion (more.takeWhile (· != '}')) :: scan fuel (some '}') others
      | _, _, some (token, others), _ => token.toList ++ scan fuel (some '\n') others
      | '<', '%' :: more, none, _ =>
          match (if "doc>".toList.isPrefixOf more then afterMark? "</%doc>".toList more
              else none) with
          | some others => scan fuel (some '>') others
          | none => [.broken (tagFailure more)]
      | '<', '/' :: '%' :: _, none, _ => [.broken .templateStructure]
      | _, _, none, some (percents, others) => .text percents :: scan fuel (some '%') others
      | _, _, none, none =>
          if stops before cs then scan fuel (some c) rest
          else
            let (text, last, others) := plain before cs
            .text text :: scan fuel last others

/-- The tokens of a template. Each takes a character at least. -/
def tokens (cs : List Char) : List Token := scan cs.length none cs

end KernelLaunch.Template
