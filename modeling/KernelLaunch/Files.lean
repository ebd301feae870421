import KernelLaunch.Text.Lines

/-!
The file system that a session sees: files in its working directory, and numbered temporary
files that hold inline and rendered sources. Paths are resolved component by component,
through existing folders only, and nothing outside of the working directory is known.
-/

namespace KernelLaunch

open Text

/-- Where a text is kept. -/
inductive Place where
  /-- A file of the working directory, by its full path. -/
  | named (path : String)
  /-- A temporary file, by its number. -/
  | temporary (number : Nat)
  deriving DecidableEq, Repr

/-- The path of a place. `<TEMP>` stands for the path of a temporary file, which
the system chooses. -/
def Place.path : Place → String
  | named path => path
  | temporary _ => "<TEMP>.cl"

structure Files where
  /-- The folders below the working directory, each by the names that lead to
  it. -/
  folders : List (List String) := []
  /-- The files in the working directory, by the names that lead to them. -/
  texts : List (List String × String) := []
  /-- The texts of the temporary files, in the order of their creation. -/
  temporary : List String := []

namespace Files

/-- What stands for the path of the working directory. -/
def directory : String := "<DIR>"

/-- The full path of the file or folder that names lead to. -/
def fullPath (names : List String) : String :=
  directory ++ String.join (names.map ("/" ++ ·))

/-- The parts of a path, some of which may be empty. -/
def parts (path : String) : List String := (splitAt '/' path.toList).map String.ofList

def isFolder (fs : Files) (names : List String) : Bool :=
  names.isEmpty || fs.folders.contains names

/-- The names that a path leads to from a folder. An empty part and a dot stay
in it, and two dots lead out of it. -/
def follow? (fs : Files) : (folder : List String) → List String → Option (List String)
  | folder, [] => some folder
  | folder, part :: rest =>
      if !fs.isFolder folder then none
      else if part = "" ∨ part = "." then follow? fs folder rest
      else if part = ".." then
        if folder.isEmpty then none else follow? fs folder.dropLast rest
      else follow? fs (folder ++ [part]) rest

/-- The names of the file that a path leads to, and its text. -/
def find? (fs : Files) (path : String) : Option (List String × String) :=
  if path.isEmpty ∨ path.startsWith "/" then none
  else do
    let names ← fs.follow? [] (parts path)
    let text ← fs.texts.lookup names
    some (names, text)

/-- The names that a path for writing is made of. -/
def names (path : String) : List String := (parts path).filter fun p => p != "" && p != "."

/-- All folders that lead to a file. -/
def foldersOf (names : List String) : List (List String) :=
  ((List.range names.length).drop 1).map names.take

/-- The files after a text is written to a path, or removed from it. -/
def write (fs : Files) (path : String) (text : Option String) : Files :=
  let file := names path
  let others := fs.texts.filter (·.1 != file)
  match text with
  | some text =>
      { fs with
        folders := fs.folders ++ (foldersOf file).filter (!fs.folders.contains ·)
        texts := others ++ [(file, text)] }
  | none => { fs with texts := others }

/-- The files after a temporary one is created, and its place. -/
def keep (fs : Files) (text : String) : Files × Place :=
  ({ fs with temporary := fs.temporary ++ [text] }, .temporary fs.temporary.length)

/-- The text at a place, exactly as it is kept. -/
def content? (fs : Files) : Place → Option String
  | .named path => (fs.texts.find? fun (file, _) => fullPath file == path).map (·.2)
  | .temporary number => fs.temporary[number]?

/-- A text as it is read: each line ends in a newline only. -/
def asRead (text : String) : String := String.ofList (normalizeNewlines text.toList)

def read? (fs : Files) (place : Place) : Option String := (fs.content? place).map asRead

end Files

end KernelLaunch
