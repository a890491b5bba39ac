import IrDialects.Text.Pieces

/-!
# Files

A directory as a value: files under relative names, with the directories that the names imply. Names
are resolved from the top of the directory; nothing outside it exists.
-/

namespace IrDialects

/-- Why a file could not be read or written. -/
inductive FileFault where
  | missing (path : String)
  | readDirectory (path : String)
  | openDirectory (path : String)
  /-- A fault of the file system, in its own words. -/
  | other (words : String)
deriving DecidableEq, Repr

namespace FileFault

def message : FileFault → String
  | missing path => "open " ++ path ++ ": no such file or directory"
  | readDirectory path => "read " ++ path ++ ": is a directory"
  | openDirectory path => "open " ++ path ++ ": is a directory"
  | other words => words

/-- Whether nothing has the name. -/
def isMissing : FileFault → Bool
  | missing _ => true
  | _ => false

end FileFault

namespace FileName

/-- Whether a name starts at the root of the file system. -/
def isAbsolute (path : String) : Bool := path.startsWith "/"

/-- One more component of a relative name, whose components so far are given innermost first. A step up
undoes a component unless that is a step up itself. -/
def push (entered : List String) (component : String) : List String :=
  if component = "" ∨ component = "." then entered
  else if component = ".." then
    match entered with
    | [] => [".."]
    | c :: cs => if c = ".." then ".." :: c :: cs else cs
  else component :: entered

/-- The components of a relative name, without redundant ones. -/
def components (path : String) : List String :=
  ((Text.splitAt '/' path).foldl push []).reverse

/-- The shortest form of a relative name. -/
def clean (path : String) : String :=
  match components path with
  | [] => "."
  | cs => "/".intercalate cs

end FileName

/-- A directory and its contents. -/
structure FileTree where
  /-- The files with their names, as components, latest first. -/
  files : List (List String × List UInt8) := []
deriving Repr

namespace FileTree

def ofList (files : List (String × List UInt8)) : FileTree :=
  ⟨files.reverse.map fun (name, bytes) => (FileName.components name, bytes)⟩

/-- The contents of the file at a place. -/
def contents? (t : FileTree) (place : List String) : Option (List UInt8) := t.files.lookup place

/-- Whether there is a directory at a place. -/
def isDirectory (t : FileTree) (place : List String) : Bool :=
  place.isEmpty || t.files.any fun (name, _) =>
    place.isPrefixOf name && place.length < name.length

/-- Where a name leads, if it can lead anywhere. -/
def place? (path : String) : Option (List String) :=
  if path.isEmpty || FileName.isAbsolute path then none
  else
    let place := FileName.components path
    if place.contains ".." then none else some place

/-- Whether a name leads to a file or a directory. -/
def has (t : FileTree) (path : String) : Bool :=
  match place? path with
  | none => false
  | some place => (t.contents? place).isSome || t.isDirectory place

def read (t : FileTree) (path : String) : Except FileFault (List UInt8) :=
  match place? path with
  | none => .error (.missing path)
  | some place =>
    match t.contents? place with
    | some bytes => .ok bytes
    | none => .error (if t.isDirectory place then .readDirectory path else .missing path)

/-- The directory after a file has been written. -/
def write (t : FileTree) (path : String) (bytes : List UInt8) : Except FileFault FileTree :=
  match place? path with
  | none => .error (.missing path)
  | some place =>
    if t.isDirectory place then .error (.openDirectory path)
    else if t.isDirectory place.dropLast then
      .ok ⟨(place, bytes) :: t.files.filter fun (name, _) => name != place⟩
    else .error (.missing path)

/-- The names of the files at the top of the directory. -/
def topNames (t : FileTree) : List String :=
  t.files.filterMap fun
    | ([name], _) => some name
    | _ => none

end FileTree

end IrDialects
