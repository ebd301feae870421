/-!
Blank characters and the words between them. Every separator, line and
paragraph mark counts as blank, whatever its script; the zero-width space does
not.
-/

namespace KernelLaunch.Text

def isBlank (c : Char) : Bool :=
  let n := c.toNat
  (9 ≤ n && n ≤ 13) || (28 ≤ n && n ≤ 32) || n == 133 || n == 160 || n == 5760 ||
    (8192 ≤ n && n ≤ 8202) || n == 8232 || n == 8233 || n == 8239 || n == 8287 || n == 12288

/-- The words of a text: its maximal runs without blanks. The accumulator
`word` holds the characters of the current word. -/
def splitWords : (word : List Char) → List Char → List (List Char)
  | word, [] => if word.isEmpty then [] else [word]
  | word, c :: rest =>
      if isBlank c then
        if word.isEmpty then splitWords [] rest else word :: splitWords [] rest
      else splitWords (word ++ [c]) rest

/-- The words of a text, in order. -/
def words (cs : List Char) : List (List Char) := splitWords [] cs

/-- Parts with a separator between each two. -/
def joinWith (sep : List Char) : List (List Char) → List Char
  | [] => []
  | [part] => part
  | part :: rest => part ++ sep ++ joinWith sep rest

/-- The words of a text with one space between each two. -/
def collapse (cs : List Char) : List Char := joinWith [' '] (words cs)

def trimLeft (cs : List Char) : List Char := cs.dropWhile isBlank

def trimRight (cs : List Char) : List Char := (cs.reverse.dropWhile isBlank).reverse

/-- A text without the blanks at both ends. -/
def trim (cs : List Char) : List Char := trimRight (trimLeft cs)

/-- Parts of a text cut at each occurrence of `sep`; there is always one. -/
def splitAt (sep : Char) : List Char → List (List Char)
  | [] => [[]]
  | c :: rest =>
      if c = sep then [] :: splitAt sep rest
      else match splitAt sep rest with
        | [] => [[c]]
        | part :: more => (c :: part) :: more

/-- The texts with a comma and a space between each two. -/
def listed (texts : List String) : String :=
  String.ofList (joinWith [',', ' '] (texts.map String.toList))

theorem splitAt_ne_nil (sep : Char) (cs : List Char) : splitAt sep cs ≠ [] := by
  cases cs with
  | nil => simp [splitAt]
  | cons c rest =>
      rw [splitAt]
      split
      · simp
      · split <;> simp

/-- Cutting at a separator and joining with it gives the text back. -/
theorem joinWith_splitAt (sep : Char) (cs : List Char) :
    joinWith [sep] (splitAt sep cs) = cs := by
  induction cs with
  | nil => rfl
  | cons c rest ih =>
      rw [splitAt]
      split
      · next h =>
        cases hs : splitAt sep rest with
        | nil => exact absurd hs (splitAt_ne_nil sep rest)
        | cons part more => rw [hs] at ih; simp [joinWith, ih, h]
      · split
        · next hs => exact absurd hs (splitAt_ne_nil sep rest)
        · next part more hs =>
          rw [hs] at ih
          cases more with
          | nil => simpa [joinWith] using ih
          | cons next others => simpa [joinWith] using ih

end KernelLaunch.Text
