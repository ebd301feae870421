import KernelLaunch.Source.Comment

/-!
Comment removal as a state machine over characters. A character that may open or close
something together with the next one is held back, so the state after a text does not depend
on what follows.
-/

namespace KernelLaunch.Source

/-- Where the machine is. -/
inductive Place where
  | code
  | slash
  | lineComment
  | blockComment
  | star
  | literal (quote : Char)
  | escape (quote : Char)
  deriving DecidableEq, Repr

namespace Place

def region : Place → Region
  | code | slash => .code
  | lineComment => .lineComment
  | blockComment | star => .blockComment
  | literal quote | escape quote => .literal quote

/-- The character that is held back. -/
def held : Place → List Char
  | slash => ['/']
  | star => ['*']
  | escape _ => ['\\']
  | _ => []

/-- The place after a character of code. -/
def ofCode (c : Char) : Place :=
  if c = '/' then slash else if c = '"' ∨ c = '\'' then literal c else code

def next : Place → Char → Place
  | code, c => ofCode c
  | slash, c => if c = '/' then lineComment else if c = '*' then blockComment else ofCode c
  | lineComment, c => if c = '\n' then code else lineComment
  | blockComment, c => if c = '*' then star else blockComment
  | star, c => if c = '/' then code else if c = '*' then star else blockComment
  | literal quote, c =>
      if c = '\\' then escape quote else if c = quote ∨ c = '\n' then code else literal quote
  | escape quote, _ => literal quote

/-- What is left of a character that is read, and of the one before it if that was held back. -/
def written : Place → Char → List Char
  | code, c => if c = '/' then [] else [c]
  | slash, c => if c = '/' then [] else if c = '*' then [' '] else ['/', c]
  | lineComment, c | blockComment, c | star, c => if c = '\n' then ['\n'] else []
  | literal _, c => if c = '\\' then [] else [c]
  | escape _, c => ['\\', c]

end Place

section Steps

theorem strip_slash {c : Char} (hline : c ≠ '/') (hblock : c ≠ '*') (rest : List Char) :
    stripFrom .code ('/' :: c :: rest) = '/' :: stripFrom .code (c :: rest) := by
  rw [stripFrom]
  · rfl
  · rintro _ _ ⟨⟩
    exact hline rfl
  · rintro _ _ ⟨⟩
    exact hblock rfl

theorem strip_code {c : Char} (hc : c ≠ '/') (rest : List Char) :
    stripFrom .code (c :: rest) = c :: stripFrom (.ofCode c) rest := by
  rw [stripFrom]
  · rintro _ rfl
    exact absurd rfl hc
  · rintro _ rfl
    exact absurd rfl hc

theorem strip_line {c : Char} (hc : c ≠ '\n') (rest : List Char) :
    stripFrom .lineComment (c :: rest) = stripFrom .lineComment rest := by
  rw [stripFrom]
  exact hc

theorem strip_block {c : Char} (hnewline : c ≠ '\n') {rest : List Char}
    (hclose : c = '*' → ∀ tail, rest ≠ '/' :: tail) :
    stripFrom .blockComment (c :: rest) = stripFrom .blockComment rest := by
  rw [stripFrom]
  · exact fun tail hc heq => hclose hc tail heq
  · exact hnewline

/-- A character of a literal, unless it is a backslash that takes the next one with it. -/
theorem strip_literal_of (quote : Char) {c : Char} {rest : List Char}
    (h : ∀ d tail, c = '\\' → rest = d :: tail → False) :
    stripFrom (.literal quote) (c :: rest) = c :: stripFrom (.ofLiteral quote c) rest := by
  rw [stripFrom]
  exact h

theorem strip_literal (quote : Char) {c : Char} (hc : c ≠ '\\') (rest : List Char) :
    stripFrom (.literal quote) (c :: rest) = c :: stripFrom (.ofLiteral quote c) rest :=
  strip_literal_of quote fun _ _ heq _ => hc heq

/-- A character of code that is not held back together with another one. -/
theorem strip_ofCode (c : Char) (rest : List Char) :
    stripFrom .code (c :: rest) =
      Place.code.written c ++
        stripFrom (Place.ofCode c).region ((Place.ofCode c).held ++ rest) := by
  by_cases hc : c = '/'
  · subst hc
    rfl
  · rw [strip_code hc, Place.written, Place.ofCode, if_neg hc, if_neg hc, Region.ofCode]
    split <;> rfl

/-- The machine reads as the removal of comments does. -/
theorem strip_next (p : Place) (c : Char) (rest : List Char) :
    stripFrom p.region (p.held ++ c :: rest) =
      p.written c ++ stripFrom (p.next c).region ((p.next c).held ++ rest) := by
  cases p with
  | code => exact strip_ofCode c rest
  | slash =>
      by_cases hline : c = '/'
      · subst hline
        rfl
      · by_cases hblock : c = '*'
        · subst hblock
          rfl
        · have hwritten : Place.slash.written c = '/' :: Place.code.written c := by
            simp [Place.written, hline, hblock]
          have hnext : Place.slash.next c = Place.ofCode c := by
            simp [Place.next, hline, hblock]
          rw [hwritten, hnext, List.cons_append, ← strip_ofCode]
          exact strip_slash hline hblock rest
  | lineComment =>
      by_cases hc : c = '\n'
      · subst hc
        rfl
      · simp only [Place.region, Place.held, Place.written, Place.next, hc, if_false]
        exact strip_line hc rest
  | blockComment =>
      by_cases hnewline : c = '\n'
      · subst hnewline
        rfl
      · by_cases hstar : c = '*'
        · subst hstar
          rfl
        · simp only [Place.region, Place.held, Place.written, Place.next, hnewline, hstar, if_false]
          exact strip_block hnewline fun heq => absurd heq hstar
  | star =>
      by_cases hclose : c = '/'
      · subst hclose
        rfl
      · have hstar : stripFrom .blockComment ('*' :: c :: rest) =
            stripFrom .blockComment (c :: rest) := by
          apply strip_block (by decide)
          rintro _ _ ⟨⟩
          exact hclose rfl
        by_cases hnewline : c = '\n'
        · subst hnewline
          exact hstar
        · by_cases hagain : c = '*'
          · subst hagain
            exact hstar
          · simp only [Place.region, Place.held, Place.written, Place.next, hclose, hnewline,
              hagain, if_false]
            exact hstar.trans (strip_block hnewline fun heq => absurd heq hagain)
  | literal quote =>
      by_cases hescape : c = '\\'
      · subst hescape
        rfl
      · simp only [Place.region, Place.held, Place.written, Place.next, hescape, if_false]
        rw [List.nil_append, strip_literal quote hescape, Region.ofLiteral]
        split <;> rfl
  | escape quote => rfl

end Steps

section Runs

/-- The place that a text ends in. -/
def scan (p : Place) (cs : List Char) : Place := cs.foldl Place.next p

/-- What is left of a text, but for a character that is held back at its end. -/
def output : Place → List Char → List Char
  | _, [] => []
  | p, c :: cs => p.written c ++ output (p.next c) cs

theorem strip_scan (p : Place) (x rest : List Char) :
    stripFrom p.region (p.held ++ (x ++ rest)) =
      output p x ++ stripFrom (scan p x).region ((scan p x).held ++ rest) := by
  induction x generalizing p with
  | nil => rfl
  | cons c x ih =>
      rw [List.cons_append, strip_next, ih, output, List.append_assoc]
      rfl

/-- A text ends outside of comments and literals. -/
def EndsOutside (a : List Char) : Prop := (scan .code a).region = .code

/-- The last character of a text is a slash of code that no comment has taken. -/
def EndsInSlash (a : List Char) : Prop := scan .code a = .slash

instance (a : List Char) : Decidable (EndsOutside a) := inferInstanceAs (Decidable (_ = _))

instance (a : List Char) : Decidable (EndsInSlash a) := inferInstanceAs (Decidable (_ = _))

/-- Two texts are read one by one if the first one ends outside of comments and literals, and
no slash at its end opens a comment with the second one. -/
theorem stripComments_append {a rest : List Char} (ha : EndsOutside a)
    (hslash : EndsInSlash a → ∀ c ∈ rest.head?, c ≠ '/' ∧ c ≠ '*') :
    stripComments (a ++ rest) = stripComments a ++ stripComments rest := by
  have hboth := strip_scan .code a rest
  have halone := strip_scan .code a []
  rw [List.append_nil] at halone
  unfold stripComments
  cases hplace : scan .code a with
  | code =>
      rw [hplace] at hboth halone
      exact hboth.trans (congrArg (· ++ stripFrom .code rest)
        (halone.trans (List.append_nil _)).symm)
  | slash =>
      rw [hplace] at hboth halone
      have hrest : stripFrom .code ('/' :: rest) = '/' :: stripFrom .code rest := by
        cases rest with
        | nil => rfl
        | cons c rest =>
            obtain ⟨hline, hblock⟩ := hslash hplace c rfl
            exact strip_slash hline hblock rest
      have hends : stripFrom .code a = output .code a ++ ['/'] := halone
      have hgoes : stripFrom .code (a ++ rest) =
          output .code a ++ stripFrom .code ('/' :: rest) := hboth
      rw [hgoes, hrest, hends, List.append_assoc, List.singleton_append]
  | _ =>
      unfold EndsOutside at ha
      rw [hplace] at ha
      cases ha

end Runs

end KernelLaunch.Source
