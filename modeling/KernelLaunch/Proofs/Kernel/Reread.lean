import KernelLaunch.Proofs.Action
import KernelLaunch.Proofs.Kernel.Printed
import KernelLaunch.Proofs.Source.Returns

/-!
Inline sources against the temporary files they are compiled from. Inline text is parsed
with its carriage returns; the backend reads the temporary file in text mode, with every
carriage return translated to a newline. Parsing and compilation agree if every carriage
return may be read as a newline. A lone carriage return that ends a line comment in the file
does not end it in the inline text.
-/

namespace KernelLaunch

open Signature Source Text

section Selected

/-- What is made of a source is the kernel of the interface that is chosen in it. -/
theorem Kernel.ofSource_eq (loaded : LoadedSource) (name : Option String) :
    Kernel.ofSource loaded name =
      (Source.interface name loaded.text).map (Kernel.made loaded) := by
  unfold Kernel.ofSource
  cases Source.interface name loaded.text <;> rfl

/-- What a kernel is called by and with: its name, its parameter list up to blanks, and its
parameters. -/
def Kernel.calling (k : Kernel) : (String × List Char) × List Parameter :=
  (k.interface.key, k.parameters)

theorem ofSignature_key {i j : Interface} (h : i.key = j.key) :
    Parameter.ofSignature i.signature = Parameter.ofSignature j.signature := by
  have hwords : collapse i.signature.toList = collapse j.signature.toList := congrArg Prod.snd h
  rw [← String.ofList_toList (s := i.signature), ← ofSignature_collapse, hwords,
    ofSignature_collapse, String.ofList_toList]

/-- Sources of the same words give kernels that are called alike, or the same error. -/
theorem Kernel.ofSource_agree {loaded other : LoadedSource}
    (h : words (code loaded.text.toList) = words (code other.text.toList))
    (name : Option String) (device : Option Device) :
    (Kernel.ofSource loaded name).map (fun make => (make device).calling) =
      (Kernel.ofSource other name).map (fun make => (make device).calling) := by
  have hchosen := interface_agree h name
  rw [Kernel.ofSource_eq, Kernel.ofSource_eq]
  rcases Steps.agree_cases hchosen with ⟨e, hx, hy⟩ | ⟨i, j, hx, hy, hkey⟩
  · rw [hx, hy]
    rfl
  · rw [hx, hy]
    exact congrArg Except.ok (Prod.ext hkey (ofSignature_key hkey))

end Selected

namespace LoadedSource

section Loading

variable {source : String} {given : Option Template.Given} {w : World Machine}

/-- The text that a source stands for: itself, or what is made of it if it is a template or the
path to one. -/
def textOf (source : String) : Option Template.Given → Action Machine String
  | none => return source
  | some given => do
      match (← Action.state).files.find? source with
      | some (_, text) => render (Files.asRead text) given
      | none => render source given

/-- The world after a text has been kept in a temporary file. -/
def keeping (text : String) (w : World Machine) : World Machine :=
  { w with state := { w.state with files := (w.state.files.keep text).1 } }

/-- A text at hand is loaded as it is, and kept. -/
theorem load_text (h : w.state.files.find? source = none) :
    (load source none).perform w =
      (.ok ⟨(w.state.files.keep source).2, source, []⟩, keeping source w) := by
  unfold load
  rw [Action.perform_bind_goes (Action.perform_state w), h]
  rfl

/-- A source that is not just the path to a file is loaded as the text that it stands for, which
is kept. -/
theorem perform_load (h : given = none → w.state.files.find? source = none) :
    ∃ includes, (load source given).perform w =
      (textOf source given >>= (keep · includes)).perform w := by
  cases given with
  | none => exact ⟨[], load_text (h rfl)⟩
  | some given =>
      unfold load
      rw [Action.perform_bind_goes (Action.perform_state w)]
      cases hfound : w.state.files.find? source with
      | none =>
          have htext : (textOf source (some given)).perform w =
              (render source given).perform w := by
            unfold textOf
            rw [Action.perform_bind_goes (Action.perform_state w), hfound]
          refine ⟨[], ?_⟩
          rw [Action.perform_bind, Action.perform_bind, htext]
      | some found =>
          obtain ⟨names, text⟩ := found
          have htext : (textOf source (some given)).perform w =
              (render (Files.asRead text) given).perform w := by
            unfold textOf
            rw [Action.perform_bind_goes (Action.perform_state w), hfound]
          refine ⟨[Files.fullPath names.dropLast], ?_⟩
          rw [Action.perform_bind, Action.perform_bind, htext]

/-- What is kept is read as a file, as long as the temporary files stay. -/
theorem read_temporary {files : List String} {text : String} {v : World Machine}
    (h : files ++ [text] <+: v.state.files.temporary) :
    (Machine.read (.temporary files.length)).perform v = (.ok (Files.asRead text), v) := by
  obtain ⟨more, hmore⟩ := h
  have hread : v.state.files.read? (.temporary files.length) = some (Files.asRead text) := by
    rw [Files.read?, Files.content?, ← hmore]
    simp
  unfold Machine.read
  rw [Action.perform_bind_goes (Action.perform_state v), hread]
  rfl

/-- A source that is the path to a file is loaded as the text is read from there. -/
theorem load_path {path : String} {names : List String} {text : String}
    (h : w.state.files.find? path = some (names, text)) :
    (load path none).perform w =
      (.ok ⟨.named (Files.fullPath names), Files.asRead text, [Files.fullPath names.dropLast]⟩,
        w) := by
  unfold load
  rw [Action.perform_bind_goes (Action.perform_state w), h]
  rfl

end Loading

end LoadedSource

section Reread

/-- An inline source as it is parsed, against the temporary file as it is compiled. -/
structure ReadAgain (loaded : LoadedSource) (after : World Machine) : Prop where
  /-- Which of its returns may be read as newlines. -/
  returns : ∀ before rest, loaded.text.toList = before ++ '\r' :: rest → HarmlessWhen before rest
  /-- The backend reads the text with newlines for its returns, as long as the file stays. -/
  read : ∀ v : World Machine, after.state.files.temporary <+: v.state.files.temporary →
    (Machine.read loaded.place).perform v = (.ok (Files.asRead loaded.text), v)
  /-- The kernels that are found are those of the text that is read, up to blanks. -/
  kernels : HarmlessReturns loaded.text.toList →
    (Source.kernels (code loaded.text.toList)).map Interface.key =
      (Source.kernels (code (Files.asRead loaded.text).toList)).map Interface.key
  /-- The path of a file that holds the text gives kernels that are called alike, or the same
  error. -/
  path : HarmlessReturns loaded.text.toList →
    ∀ (v : World Machine) (path : String) (names : List String),
      v.state.files.find? path = some (names, loaded.text) →
        ∃ other, (LoadedSource.load path none).perform v = (.ok other, v) ∧
          ∀ (wanted : Option String) (device : Option Device),
            (Kernel.ofSource loaded wanted).map (fun make => (make device).calling) =
              (Kernel.ofSource other wanted).map (fun make => (make device).calling)

/-- What loading makes of a source that is not just the path to a file. -/
structure Loads (source : String) (given : Option Template.Given) (w : World Machine) : Prop where
  loads : ∀ text mid, (LoadedSource.textOf source given).perform w = (.ok text, mid) →
    ∃ loaded, (LoadedSource.load source given).perform w =
        (.ok loaded, LoadedSource.keeping text mid) ∧
      loaded.text = text ∧ ReadAgain loaded (LoadedSource.keeping text mid)
  /-- It fails only where a template does. -/
  fails : ∀ e mid, (LoadedSource.textOf source given).perform w = (.error e, mid) →
    (LoadedSource.load source given).perform w = (.error e, mid)

theorem readAgain_keep (text : String) (includes : List String) (mid : World Machine) :
    ReadAgain ⟨(mid.state.files.keep text).2, text, includes⟩
      (LoadedSource.keeping text mid) where
  returns before rest _ := harmlessWhen before rest
  read _ h := LoadedSource.read_temporary h
  kernels h := by
    have hwords := words_code_read [] text.toList h
    rw [Files.asRead, String.toList_ofList]
    exact map_key_kernels hwords
  path h v path names hfound := by
    refine ⟨_, LoadedSource.load_path hfound, fun wanted device => ?_⟩
    refine Kernel.ofSource_agree ?_ wanted device
    rw [Files.asRead, String.toList_ofList]
    exact words_code_read [] text.toList h

/-- Loading an inline or rendered source: parsing and compilation see the same kernels if
every carriage return may be read as a newline. -/
theorem load_readAgain (source : String) (given : Option Template.Given) (w : World Machine)
    (h : given = none → w.state.files.find? source = none) : Loads source given w := by
  obtain ⟨includes, hload⟩ := LoadedSource.perform_load h
  constructor
  case loads =>
    intro text mid htext
    refine ⟨⟨(mid.state.files.keep text).2, text, includes⟩, ?_, rfl,
      readAgain_keep text includes mid⟩
    rw [hload, Action.perform_bind_goes htext]
    rfl
  case fails =>
    intro e mid htext
    rw [hload, Action.perform_bind_stops htext]

/-- Carriage returns in a comment, in code and between two comments, some of them with
newlines. -/
def sampleReturns : String :=
  "/* a\rb */ kernel void f(int a,\r\n int b)\r{}\r\n// one\r// two"

theorem sample_readAgain :
    HarmlessReturns sampleReturns.toList ∧
      (kernels (code (Files.asRead sampleReturns).toList)).map Interface.key =
        [("f", "int a, int b".toList)] ∧
      Loads sampleReturns none { state := {} } :=
  ⟨by decide +kernel, by decide +kernel,
    load_readAgain sampleReturns none { state := {} } fun _ => by decide +kernel⟩

/-- A line comment that ends with a lone carriage return in text mode, and takes in the
declaration otherwise. -/
def notedSource : String := "// note\rkernel void f(int a)"

/-- A machine with a file that holds it. -/
def notedMachine : World Machine :=
  { state := { files := { texts := [(["a.cl"], notedSource)] } } }

/-- The inline source declares no kernel, while the temporary file that is compiled declares
one, and so does the same text loaded from a file path. -/
theorem lone_return_hides_kernel :
    ∃ loaded after other, (LoadedSource.load notedSource none).perform notedMachine =
        (.ok loaded, after) ∧
      kernels (code loaded.text.toList) = [] ∧
      Kernel.ofSource loaded none = .error (notFound none []) ∧
      (Machine.read loaded.place).perform after = (.ok "// note\nkernel void f(int a)", after) ∧
      kernels (code "// note\nkernel void f(int a)".toList) = [⟨"f", "int a"⟩] ∧
      notedMachine.state.files.find? "a.cl" = some (["a.cl"], notedSource) ∧
      (LoadedSource.load "a.cl" none).perform notedMachine = (.ok other, notedMachine) ∧
      (Kernel.ofSource other none).map (fun make => (make none).name) = .ok "f" := by
  have hinline : notedMachine.state.files.find? notedSource = none := by decide +kernel
  have hpath : notedMachine.state.files.find? "a.cl" = some (["a.cl"], notedSource) := by
    decide +kernel
  have hread : Files.asRead notedSource = "// note\nkernel void f(int a)" := by decide
  refine ⟨_, _, _, LoadedSource.load_text hinline, ?_, ?_, ?_, ?_, hpath,
    LoadedSource.load_path hpath, ?_⟩
  · decide +kernel
  · rfl
  · rw [← hread]
    exact LoadedSource.read_temporary List.prefix_rfl
  · decide +kernel
  · rw [hread]
    rfl

end Reread

end KernelLaunch
