/-!
# Folders

A folder in memory: files under relative paths, read and written with the answers that an
operating system gives.
-/

namespace ScalarScript
namespace Console

/-- Why a file cannot be read or written. -/
inductive FileError where
  | notFound
  | isFolder
  | notFolder
deriving DecidableEq, Repr

namespace FileError

/-- The error in messages. -/
def message : FileError → String
  | .notFound => "No such file or directory (os error 2)"
  | .isFolder => "Is a directory (os error 21)"
  | .notFolder => "Not a directory (os error 20)"

end FileError

/-- Files with the names that lead to them. -/
structure Folder where
  files : List (List String × ByteArray)

namespace Folder

/-- The names of a path between its slashes. -/
def names (path : String) : List String :=
  path.splitOn "/"

/-- A folder with the given files. -/
def ofFiles (files : List (String × ByteArray)) : Folder :=
  ⟨files.map fun (path, content) => ((names path).filter (· ≠ ""), content)⟩

/-- What a path leads to. -/
inductive Place where
  | folder (names : List String)
  /-- Beyond the folder itself. -/
  | outside
  | file (names : List String)
  /-- A name that is free, in a folder that exists. -/
  | free (names : List String)
deriving DecidableEq, Repr

/-- Whether some file lies below the given names. -/
def hasFolder (folder : Folder) (names : List String) : Bool :=
  names.isEmpty || folder.files.any fun file =>
    names.isPrefixOf file.1 && names.length < file.1.length

/-- One name further. -/
def enter (folder : Folder) (place : Place) (name : String) : Except FileError Place :=
  match place with
  | .file _ => .error .notFolder
  | .free _ => .error .notFound
  | .outside => if name = "" ∨ name = "." ∨ name = ".." then .ok .outside else .error .notFound
  | .folder names =>
      if name = "" ∨ name = "." then .ok (.folder names)
      else if name = ".." then
        .ok (if names.isEmpty then .outside else .folder names.dropLast)
      else
        let child := names ++ [name]
        if (folder.files.lookup child).isSome then .ok (.file child)
        else if folder.hasFolder child then .ok (.folder child)
        else .ok (.free child)

/-- Follows names from a place. -/
def follow (folder : Folder) (place : Place) : List String → Except FileError Place
  | [] => .ok place
  | name :: names => do
      let next ← folder.enter place name
      folder.follow next names

/-- What a path leads to.  The empty path leads nowhere, and a path from the root leads
outside. -/
def resolve (folder : Folder) (path : String) : Except FileError Place :=
  if path = "" then .error .notFound
  else if path.startsWith "/" then folder.follow .outside (names path)
  else folder.follow (.folder []) (names path)

/-- The content of a file. -/
def read (folder : Folder) (path : String) : Except FileError ByteArray := do
  match ← folder.resolve path with
  | .file names =>
      match folder.files.lookup names with
      | some content => .ok content
      | none => .error .notFound
  | .folder _ | .outside => .error .isFolder
  | .free _ => .error .notFound

/-- The text of a file, where there is one that holds text. -/
def text? (folder : Folder) (path : String) : Option String :=
  (folder.read path).toOption.bind String.fromUTF8?

/-- The folder with a file replaced or added. -/
def put (folder : Folder) (names : List String) (content : ByteArray) : Folder :=
  ⟨(names, content) :: folder.files.filter fun file => file.1 ≠ names⟩

/-- The path without the slashes at its end. -/
def withoutSlashes (path : String) : String :=
  String.ofList (path.toList.reverse.dropWhile (· = '/')).reverse

/-- Writes a file.  A name with a slash after it is taken for a folder. -/
def write (folder : Folder) (path : String) (content : ByteArray) :
    Except FileError Folder :=
  match folder.resolve path with
  | .ok (.file names) => .ok (folder.put names content)
  | .ok (.free names) => .ok (folder.put names content)
  | .ok (.folder _) => .error .isFolder
  | .ok .outside => .error .isFolder
  | .error error =>
      match folder.resolve (withoutSlashes path) with
      | .ok _ => .error .isFolder
      | .error _ => .error error

end Folder

/-- Access to files.  A failure gives its reason. -/
structure Files (m : Type → Type) where
  read : String → m (Except String ByteArray)
  write : String → String → m (Except String Unit)

/-- Access to the files of a folder in memory. -/
def Folder.access : Files (StateM Folder) where
  read path := do
    match (← get).read path with
    | .ok content => pure (.ok content)
    | .error error => pure (.error error.message)
  write path text := do
    match (← get).write path text.toUTF8 with
    | .ok folder =>
        set folder
        pure (.ok ())
    | .error error => pure (.error error.message)

end Console
end ScalarScript
