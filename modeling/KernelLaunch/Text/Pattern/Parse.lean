import KernelLaunch.Text.Pattern.Token

/-!
Parsing of regular expressions, with a stack of open groups, and searching for them.
-/

namespace KernelLaunch.Text.Pattern

/-- A part of a sequence, and how it may be followed by a repetition. -/
inductive Item where
  | repeatable (p : Pattern)
  | fixed (p : Pattern)

def Item.pattern : Item → Pattern
  | repeatable p | fixed p => p

/-- What has been read of a group: the alternatives that are complete and the
items of the current one, both the latest first. -/
structure Level where
  alternatives : List Pattern
  items : List Item

/-- A level of which nothing has been read. -/
def Level.start : Level := ⟨[], []⟩

/-- The items of a level, the latest first, as one sequence. -/
def Level.sequence (l : Level) : Pattern :=
  match l.items.map Item.pattern with
  | [] => .empty
  | last :: before => before.foldl (fun rest p => .seq p rest) last

def Level.pattern (l : Level) : Pattern :=
  l.alternatives.foldl (fun rest p => .either p rest) l.sequence

def Level.push (l : Level) (item : Item) : Level := { l with items := item :: l.items }

/-- Puts tokens into the level that is being read and into the `outer` ones.
There must be something to repeat before a repetition, and one repetition
cannot follow another. -/
def parse? : (outer : List Level) → Level → List PatternToken → Option Pattern
  | [], level, [] => some level.pattern
  | _ :: _, _, [] => none
  | outer, level, .part p :: rest => parse? outer (level.push (.repeatable p)) rest
  | outer, level, .place p :: rest => parse? outer (level.push (.fixed p)) rest
  | outer, level, .bar :: rest =>
      parse? outer ⟨level.sequence :: level.alternatives, []⟩ rest
  | outer, level, .opening :: rest => parse? (level :: outer) .start rest
  | [], _, .closing :: _ => none
  | enclosing :: outer, level, .closing :: rest =>
      parse? outer (enclosing.push (.repeatable level.pattern)) rest
  | outer, level, .repeated least most :: rest =>
      match level.items with
      | .repeatable p :: before =>
          if most.any (· < least) then none
          else parse? outer ⟨level.alternatives, .fixed (.repeated p least most) :: before⟩ rest
      | _ => none

end Pattern

/-- A pattern to search for. -/
structure Mask where
  anyCase : Bool
  pattern : Pattern

namespace Mask

/-- Reads a mask. At its start the mask may ask for any case. -/
def ofText? : List Char → Option Mask
  | '(' :: '?' :: 'i' :: ')' :: rest => (ofText? rest).map fun m => { m with anyCase := true }
  | cs => do
      let tokens ← PatternToken.ofText? cs
      (Pattern.parse? [] .start tokens).map (⟨false, ·⟩)

def occursIn (m : Mask) (text : String) : Bool :=
  let chars := text.toList.toArray
  (List.range (chars.size + 1)).any fun i => !(m.pattern.ends m.anyCase chars i).isEmpty

end Mask

end KernelLaunch.Text
