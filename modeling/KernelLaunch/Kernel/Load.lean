import KernelLaunch.Kernel.Basic
import KernelLaunch.Machine
import KernelLaunch.Source.Selection
import KernelLaunch.Template.Render

/-!
Loading kernel sources from a file path or from inline text, with template rendering. Inline
and rendered text is kept in a temporary file, since every build reads its source file
again.
-/

namespace KernelLaunch

open Host

structure LoadedSource where
  place : Place
  text : String
  /-- The folder of the file that the source was read from. -/
  includes : List String

namespace LoadedSource

/-- Renders a template source. A failure while rendering is logged; a syntax error of the
template is raised without a log entry. -/
def render {σ : Type} (source : String) (given : Template.Given) : Action σ String := do
  if (given.lookup Template.templateName).isSome then throw .wrongKind
  let parts ← Template.parts source
  match Template.fill parts given with
  | .ok text => return text
  | .error e =>
      Action.note (.error (Template.fillReport given))
      throw e

/-- Keeps a text in a temporary file. -/
def keep (text : String) (includes : List String) : Action Machine LoadedSource := do
  let (files, place) := (← Action.state).files.keep text
  Action.update fun m => { m with files }
  return ⟨place, text, includes⟩

/-- Loads a source, which is a template if values are given for it. -/
def load (source : String) (given : Option Template.Given) : Action Machine LoadedSource := do
  match (← Action.state).files.find? source, given with
  | some (names, text), none =>
      return ⟨.named (Files.fullPath names), Files.asRead text, [Files.fullPath names.dropLast]⟩
  | some (names, text), some given =>
      keep (← render (Files.asRead text) given) [Files.fullPath names.dropLast]
  | none, none => keep source []
  | none, some given => keep (← render source given) []

end LoadedSource

/-- The kernel of a loaded source that has a name, or its only kernel. -/
def Kernel.ofSource (loaded : LoadedSource) (name : Option String) :
    Except Failure (Option Device → Kernel) := do
  let interface ← Source.interface name loaded.text
  return fun device =>
    { interface
      parameters := Signature.Parameter.ofSignature interface.signature
      source := loaded.place
      device
      includes := loaded.includes.map .text
      compilerOptions := Kernel.defaultOptions }

end KernelLaunch
