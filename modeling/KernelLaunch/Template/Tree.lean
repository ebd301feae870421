import KernelLaunch.Template.Token

/-!
Template parser: control lines nest, so the tokens are built into a tree with a stack of
open levels. An `% if` takes any number of `% elif` lines and one `% else`; a `% for` takes
one `% else`.
-/

namespace KernelLaunch.Template

inductive Part where
  | text (cs : List Char)
  | value (t : Term)
  | choice (condition : Term) (yes no : List Part)
  /-- A loop, with its body and the `else` part that follows the last item. -/
  | loop (index : String) (source : Source) (body after : List Part)

/-- The control line that has opened a level. -/
inductive Opening where
  /-- An `if` or `elif`, with the earlier conditions and their bodies, the latest first. -/
  | choice (earlier : List (Term × List Part)) (condition : Term)
  | loop (index : String) (source : Source)

/-- The keyword of the control line, which its end line repeats. -/
def Opening.keyword : Opening → String
  | choice _ _ => "if"
  | loop _ _ => "for"

/-- An open level of the stack. -/
structure Level where
  opening : Opening
  /-- The parts before it, the latest first. -/
  before : List Part
  /-- The parts before its `% else` line, if that has been read. -/
  upper : Option (List Part)

/-- Closes a level with its last parts. Each `elif` becomes a choice in the `else` part of the
condition before it. -/
def Level.close (l : Level) (parts : List Part) : Part :=
  let (first, second) := match l.upper with
    | none => (parts, [])
    | some upper => (upper, parts)
  match l.opening with
  | .choice earlier condition =>
      earlier.foldl (fun rest (condition, yes) => .choice condition yes [rest])
        (.choice condition first second)
  | .loop index source => .loop index source first second

/-- A parse result. It is not sound if an `else` or `elif` line is misplaced, or if an
expression has no value. -/
structure Reading where
  sound : Bool
  parts : List Part

/-- Parses tokens over a stack of open levels. `parts` are those of the innermost level so
far, the latest first. Unsound trees are reported after all other errors. -/
def build : (sound : Bool) → List Level → (parts : List Part) → List Token →
    Except Failure Reading
  | sound, [], parts, [] => .ok ⟨sound, parts.reverse⟩
  | _, _ :: _, _, [] => .error .templateStructure
  | _, _, _, .broken why :: _ => .error why
  | sound, levels, parts, .text cs :: rest => build sound levels (.text cs :: parts) rest
  | sound, levels, parts, .value t :: rest => build sound levels (.value t :: parts) rest
  | _, levels, parts, .valueless :: rest => build false levels parts rest
  | sound, levels, parts, .choice condition :: rest =>
      build sound (⟨.choice [] condition, parts, none⟩ :: levels) [] rest
  | sound, levels, parts, .loop index source :: rest =>
      build sound (⟨.loop index source, parts, none⟩ :: levels) [] rest
  | _, [], parts, .alternative _ :: rest => build false [] parts rest
  | sound, l :: levels, parts, .alternative next :: rest =>
      match l.opening, l.upper with
      | .choice earlier condition, none =>
          build sound
            (⟨.choice ((condition, parts.reverse) :: earlier) next, l.before, none⟩ :: levels) []
            rest
      | .choice _ _, some _ => build false (l :: levels) parts rest
      | .loop _ _, _ => .error .templateStructure
  | _, [], parts, .otherwise :: rest => build false [] parts rest
  | sound, l :: levels, parts, .otherwise :: rest =>
      build (sound && l.upper.isNone) (⟨l.opening, l.before, some parts.reverse⟩ :: levels) [] rest
  | _, [], _, .finish _ :: _ => .error .templateStructure
  | sound, l :: levels, parts, .finish keyword :: rest =>
      if keyword = l.opening.keyword then
        build sound levels (l.close parts.reverse :: l.before) rest
      else .error .templateStructure

mutual

/-- The loop indices of a part. -/
def Part.defined : Part → List String
  | .text _ | .value _ => []
  | .choice _ yes no => definedByAll yes ++ definedByAll no
  | .loop index _ body after => index :: (definedByAll body ++ definedByAll after)

/-- The loop indices of several parts. -/
def definedByAll : List Part → List String
  | [] => []
  | part :: rest => part.defined ++ definedByAll rest

end

/-- Names reserved by the template engine. -/
def keptNames : List String := ["context", "loop", "UNDEFINED", "STOP_RENDERING"]

/-- Parses a template. A loop variable with a reserved name is an error, whether or not the
tree is sound. -/
def parts (source : String) : Except Failure (List Part) := do
  let reading ← build true [] [] (tokens source.toList)
  if (definedByAll reading.parts).any keptNames.contains then .error .keptName
  else if reading.sound then .ok reading.parts
  else .error .templateOrder

end KernelLaunch.Template
