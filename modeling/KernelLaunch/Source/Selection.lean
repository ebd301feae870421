import KernelLaunch.Error
import KernelLaunch.Source.Interface

/-!
Kernel selection. Without a name the source must declare exactly one kernel; with a name,
exactly one kernel of that name.
-/

namespace KernelLaunch.Source

def notFound (name : Option String) (found : List Interface) : Failure :=
  .kernel (.notFound name (found.map (·.name)))

/-- Selects the kernel of a name, or the only kernel if no name is given. -/
def select (name : Option String) (found : List Interface) : Except Failure Interface :=
  match name with
  | none =>
      match found with
      | [] => .error (notFound none found)
      | [only] => .ok only
      | _ => .error (.kernel (.ambiguous (found.map (·.name))))
  | some wanted =>
      match found.filter (·.name == wanted) with
      | [only] => .ok only
      | _ => .error (notFound name found)

/-- Selects a kernel of a source text, after its comments and directives have been removed. -/
def interface (name : Option String) (source : String) : Except Failure Interface :=
  select name (kernels (code source.toList))

end KernelLaunch.Source
