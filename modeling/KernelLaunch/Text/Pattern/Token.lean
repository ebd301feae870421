import KernelLaunch.Text.Pattern.Basic

/-!
The tokens of a written pattern. A character with a meaning of its own stands
for itself after a backslash; so does an opening brace that begins no count.
-/

namespace KernelLaunch.Text

inductive PatternToken where
  /-- A part that matches characters. -/
  | part (p : Pattern)
  /-- A place that matches no character. It cannot be repeated. -/
  | place (p : Pattern)
  | repeated (least : Nat) (most : Option Nat)
  | opening
  | closing
  | bar

namespace PatternToken

/-- The set that an escaped letter names. -/
def setOf? : Char → Option CharSet
  | 'd' => some .digits
  | 'D' => some (.complement .digits)
  | 's' => some .blanks
  | 'S' => some (.complement .blanks)
  | 'w' => some .wordChars
  | 'W' => some (.complement .wordChars)
  | _ => none

/-- The place that an escaped letter names. -/
def placeOf? : Char → Option Pattern
  | 'A' => some .atStart
  | 'Z' => some .atVeryEnd
  | 'b' => some (.boundary true)
  | 'B' => some (.boundary false)
  | _ => none

/-- The character that an escaped one stands for. Letters and digits without a
meaning stand for nothing. -/
def charOf? (c : Char) : Option Char :=
  match c with
  | 'a' => some '\x07'
  | 'f' => some '\x0c'
  | 'n' => some '\n'
  | 'r' => some '\r'
  | 't' => some '\t'
  | 'v' => some '\x0b'
  | c => if c.isAlphanum then none else some c

def escaped? (c : Char) : Option PatternToken :=
  match placeOf? c, setOf? c with
  | some p, _ => some (.place p)
  | _, some set => some (.part (.one set))
  | _, _ => (charOf? c).map fun d => .part (.one (.only d))

/-- The member of a set that an escaped character names. A boundary letter is a
backspace there. -/
def member? (c : Char) : Option CharSet :=
  match setOf? c with
  | some set => some set
  | none => if c = 'b' then some (.only '\x08') else (charOf? c).map .only

/-- The first member of a set, which is written on its own or escaped. -/
def firstMember? : List Char → Option (CharSet × List Char)
  | [] => none
  | ['\\'] => none
  | '\\' :: c :: rest => (member? c).map (·, rest)
  | c :: rest => some (.only c, rest)

/-- The members of a set up to its closing bracket, and the rest. A closing
bracket that comes first is a member. The scan takes at most `fuel` members. -/
def members? : (fuel : Nat) → (first : Bool) → List Char → Option (List CharSet × List Char)
  | 0, _, _ => none
  | fuel + 1, first, cs =>
      if !first && cs.head? == some ']' then some ([], cs.tail)
      else do
        let (low, rest) ← firstMember? cs
        match rest with
        | '-' :: ']' :: rest => some ([low, .only '-'], rest)
        | '-' :: rest =>
            let (high, rest) ← firstMember? rest
            match low, high with
            | .only a, .only b =>
                if a ≤ b then
                  let (more, rest) ← members? fuel false rest
                  some (.range a b :: more, rest)
                else none
            | _, _ => none
        | rest =>
            let (more, rest) ← members? fuel false rest
            some (low :: more, rest)

/-- A set after its opening bracket, and the rest. -/
def set? (cs : List Char) : Option (CharSet × List Char) :=
  match cs with
  | '^' :: rest =>
      (members? (rest.length + 1) true rest).map fun (members, rest) =>
        (.complement (.union members), rest)
  | _ => (members? (cs.length + 1) true cs).map fun (members, rest) => (.union members, rest)

/-- The number at the start of a text, if it has digits, and the rest. -/
def count (cs : List Char) : Option Nat × List Char :=
  let digits := cs.takeWhile Char.isDigit
  (if digits.isEmpty then none else some (ofDigits (digits.map fun c => c.toNat - 48)),
    cs.dropWhile Char.isDigit)

/-- A count after its opening brace, and the rest. -/
def counts? (cs : List Char) : Option (PatternToken × List Char) :=
  let (least, rest) := count cs
  match least, rest with
  | some n, '}' :: rest => some (.repeated n (some n), rest)
  | least, ',' :: rest =>
      let (most, rest) := count rest
      match rest with
      | '}' :: rest => some (.repeated (least.getD 0) most, rest)
      | _ => none
  | _, _ => none

/-- The text after a repetition without the mark that asks for the shortest
match. -/
def afterMark : List Char → List Char
  | '?' :: rest => rest
  | rest => rest

def next? : List Char → Option (PatternToken × List Char)
  | [] => none
  | '.' :: rest => some (.part (.one .inLine), rest)
  | '^' :: rest => some (.place .atStart, rest)
  | '$' :: rest => some (.place .atEnd, rest)
  | '|' :: rest => some (.bar, rest)
  | ')' :: rest => some (.closing, rest)
  | '(' :: '?' :: ':' :: rest => some (.opening, rest)
  | '(' :: '?' :: _ => none
  | '(' :: rest => some (.opening, rest)
  | '*' :: rest => some (.repeated 0 none, afterMark rest)
  | '+' :: rest => some (.repeated 1 none, afterMark rest)
  | '?' :: rest => some (.repeated 0 (some 1), afterMark rest)
  | '[' :: rest => (set? rest).map fun (set, rest) => (.part (.one set), rest)
  | ['\\'] => none
  | '\\' :: c :: rest => (escaped? c).map (·, rest)
  | '\x7b' :: rest =>
      match counts? rest with
      | some (token, rest) => some (token, afterMark rest)
      | none => some (.part (.one (.only '\x7b')), rest)
  | c :: rest => some (.part (.one (.only c)), rest)

/-- The tokens of a text, at most `fuel`. -/
def scan? : (fuel : Nat) → List Char → Option (List PatternToken)
  | _, [] => some []
  | 0, _ => none
  | fuel + 1, cs => do
      let (token, rest) ← next? cs
      some (token :: (← scan? fuel rest))

/-- The tokens of a text; each takes a character at least. -/
def ofText? (cs : List Char) : Option (List PatternToken) := scan? cs.length cs

end PatternToken

end KernelLaunch.Text
