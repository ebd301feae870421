import KernelLaunch.Signature.Parameter

/-!
Type overrides. A parameter type that is no kernel type, such as a macro, stays unresolved
until the caller defines it. All replacements are made simultaneously, so two types can be
swapped.
-/

namespace KernelLaunch.Signature

open Host

/-- The unresolved element types after those already `seen`, each once. -/
def unresolvedFrom (seen : List String) : List Parameter → List String
  | [] => []
  | p :: rest =>
      if p.isResolved || p.elementType ∈ seen then unresolvedFrom seen rest
      else p.elementType :: unresolvedFrom (p.elementType :: seen) rest

/-- The unresolved element types of parameters, in order of first appearance. -/
def unresolved (parameters : List Parameter) : List String := unresolvedFrom [] parameters

/-- The aliases to be replaced: those given, or the unresolved types. -/
def aliases (parameters : List Parameter) : Value → Except Failure (List Value)
  | .atom .absent => .ok ((unresolved parameters).map .text)
  | given => given.items

/-- The replacement table, by alias. A list is not hashable, so it cannot be an alias. -/
def replacements (names : List Value) (types : List String) :
    Except Failure (List (Value × String)) :=
  if names.any fun v => match v with | .atom _ => false | _ => true then .error .wrongKind
  else .ok (names.zip types)

/-- Looks an element type up. The last of equal aliases wins; an alias that is no text matches
nothing. -/
def replacement (table : List (Value × String)) (elementType : String) : String :=
  ((table.reverse.find? fun pair => pair.1.text? == some elementType).map (·.2)).getD elementType

/-- Replaces the element types `names` by `types`, in all parameters at once. Without names it
replaces the unresolved types. -/
def override (parameters : List Parameter) (types names : Value) :
    Except Failure (List Parameter) := do
  let types ← types.items
  let names ← aliases parameters names
  if types.length ≠ names.length then
    .error (.kernel (.aliasCount (← textsOf types) (← textsOf names)))
  else do
    let types ← types.mapM ElementType.normalize
    let table ← replacements names types
    return parameters.map fun p => { p with elementType := replacement table p.elementType }

end KernelLaunch.Signature
