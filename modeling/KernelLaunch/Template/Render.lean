import KernelLaunch.Template.Standard
import KernelLaunch.Template.Tree

/-!
Template rendering. All free names of a template are looked up before anything is rendered,
even those of branches not taken, and must be given or built in. A loop variable keeps its
last value after the loop.
-/

namespace KernelLaunch.Template

open Host

/-- The keyword values of a rendering, by name. -/
abbrev Given := List (String × Value)

/-- The names that the iterable of a loop looks up. -/
def Source.used : Source → List String
  | .items t => t.used
  | .call function args => function.used ++ args.flatMap Term.used

mutual

/-- The names that a part looks up. -/
def Part.used : Part → List String
  | .text _ => []
  | .value t => t.used
  | .choice condition yes no => condition.used ++ (usedByAll yes ++ usedByAll no)
  | .loop _ source body after => source.used ++ (usedByAll body ++ usedByAll after)

/-- The names that several parts look up. -/
def usedByAll : List Part → List String
  | [] => []
  | part :: rest => part.used ++ usedByAll rest

end

/-- The built-in function of counting loops. A given value of that name shadows it. -/
def counter : String := "range"

/-- The built-in function that every `${...}` expression applies. A given value of that name
shadows it in the whole template, if the template uses the name at all. -/
def converter : String := "str"

/-- The built-in function that no given value shadows. -/
def printer : String := "print"

/-- What a term evaluates to. -/
inductive Meaning where
  | value (v : Value)
  /-- A built-in function or class, with its text. -/
  | known (text : String)

def Meaning.plain : Meaning → String
  | .value v => v.plain
  | .known text => text

def Meaning.isTrue : Meaning → Bool
  | .value v => v.isTrue
  | .known _ => true

/-- The items that a loop iterates over; only lists and texts have any. -/
def Meaning.items : Meaning → Except Failure (List Value)
  | .value v => v.items
  | .known _ => .error .wrongKind

/-- The integer argument of a counting loop. Truth values count as integers. -/
def Meaning.integer : Meaning → Except Failure Int
  | .value (.atom (.truth b)) => .ok (cond b 1 0)
  | .value (.atom (.int n)) => .ok n
  | _ => .error .wrongKind

/-- The meaning of a name that no loop defines. -/
def meaning? (given : Given) (name : String) : Option Meaning :=
  let value := if name = printer then none else given.lookup name
  match value with
  | some v => some (.value v)
  | none => (standardText? name).map .known

/-- The scope of names: the given values, the loop variables of the whole template, and the
values that loops have assigned so far. -/
structure Scope where
  given : Given
  indices : List String
  current : List (String × Value)

def Scope.meaning (s : Scope) (name : String) : Except Failure Meaning :=
  if s.indices.contains name then
    match s.current.lookup name with
    | some v => .ok (.value v)
    | none => .error .unsetName
  else match meaning? s.given name with
    | some m => .ok m
    | none => .error .undefinedName

def Scope.term (s : Scope) : Term → Except Failure Meaning
  | .name name => s.meaning name
  | .constant v => .ok (.value v)

def Scope.text (s : Scope) (t : Term) : Except Failure String := do
  match ← s.meaning converter, ← s.term t with
  | .known _, m => .ok m.plain
  | .value _, _ => .error .wrongKind

/-- The half-open range from `start` to `stop` by a step, which may be negative. -/
def stepped (start stop step : Int) : List Int :=
  let span := if step < 0 then start - stop else stop - start
  let rounds := (span + step.natAbs - 1) / step.natAbs
  (List.range rounds.toNat).map fun (i : Nat) => start + step * i

/-- The range for one, two or three arguments: a stop, a start and a stop, or both with a
step. -/
def counted : List Int → Except Failure (List Int)
  | [stop] => .ok (stepped 0 stop 1)
  | [start, stop] => .ok (stepped start stop 1)
  | [start, stop, step] => if step = 0 then .error .badValue else .ok (stepped start stop step)
  | _ => .error .wrongKind

/-- The items of an iterable. `range` is the only function that can be called. -/
def Scope.items (s : Scope) : Source → Except Failure (List Value)
  | .items t => do (← s.term t).items
  | .call function args => do
      let m ← s.term function
      let args ← args.mapM s.term
      match function, m with
      | .name name, .known _ =>
          if name = counter then do .ok ((← counted (← args.mapM Meaning.integer)).map .int)
          else .error .wrongKind
      | _, _ => .error .wrongKind

/-- Assigns a loop variable. -/
def Scope.set (s : Scope) (name : String) (v : Value) : Scope :=
  { s with current := (name, v) :: s.current.filter (·.1 != name) }

mutual

/-- Renders a part; returns its text and the scope after it. -/
def Part.render : Part → Scope → Except Failure (List Char × Scope)
  | .text cs, s => .ok (cs, s)
  | .value t, s => do .ok ((← s.text t).toList, s)
  | .choice condition yes no, s => do
      if (← s.term condition).isTrue then renderAll yes s else renderAll no s
  | .loop index source body after, s => do
      let (text, s) ← (← s.items source).foldlM (fun (text, s) v => do
        let (more, s) ← renderAll body (s.set index v)
        .ok (text ++ more, s)) ([], s)
      let (rest, s) ← renderAll after s
      .ok (text ++ rest, s)

/-- Renders several parts in order. -/
def renderAll : List Part → Scope → Except Failure (List Char × Scope)
  | [], s => .ok ([], s)
  | part :: rest, s => do
      let (first, s) ← part.render s
      let (others, s) ← renderAll rest s
      .ok (first ++ others, s)

end

/-- Names refused as keyword values, with the errors, in the order in which they are
checked. -/
def takenNames : List (List String × Failure) :=
  [(["self", "buffer"], .wrongKind), (keptNames, .keptName),
    (["tmpl", "callable_"], .wrongKind)]

/-- Fails if a keyword value has one of the refused names. -/
def checkGiven (given : Given) : Except Failure Unit :=
  takenNames.forM fun (names, why) =>
    if given.any (names.contains ·.1) then .error why else .ok ()

/-- Renders a parsed template with keyword values. -/
def fill (all : List Part) (given : Given) : Except Failure String := do
  checkGiven given
  let indices := definedByAll all
  let free := (usedByAll all).filter (!indices.contains ·)
  if free.any fun name => (meaning? given name).isNone then .error .undefinedName
  else
    let (text, _) ← renderAll all ⟨given.filter (free.contains ·.1), indices, []⟩
    return String.ofList text

/-- The keyword of the template source itself. -/
def templateName : String := "template_src"

/-- The error message logged when rendering fails. -/
def fillReport (given : Given) : String :=
  "Failed to render template with\nkwds: " ++ namedText given

end KernelLaunch.Template
