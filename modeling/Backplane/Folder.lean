/-!
# `Backplane.Folder`: files by name

The working folder as far as a run of the program can see it: which names hold files, and what
reading, writing and looking for one yields.  A path is followed component by component: `.` stays,
`..` leads to the folder above, and every component but the last has to be a folder.

`ConfigSource` and `AppConfig` are read from it, and the `UnitResolver` opens libraries in it.
-/
namespace Backplane

inductive FileFault
  | notFound
  | notDirectory
  | isDirectory
  | nameTooLong
  | nullInName
  | notText
deriving DecidableEq, Repr

def FileFault.message : FileFault → String
  | notFound => "No such file or directory (os error 2)"
  | notDirectory => "Not a directory (os error 20)"
  | isDirectory => "Is a directory (os error 21)"
  | nameTooLong => "File name too long (os error 36)"
  | nullInName => "file name contained an unexpected NUL byte"
  | notText => "stream did not contain valid UTF-8"

def cutSlashes : List Char → List (List Char)
  | [] => [[]]
  | c :: rest =>
    match c, cutSlashes rest with
    | '/', parts => [] :: parts
    | c, part :: parts => (c :: part) :: parts
    | c, [] => [[c]]

/-- Files by the components of their names, seen from the working folder. -/
structure Folder where
  files : List (List String × ByteArray) := []

/-- What stands at a path. -/
inductive Place
  | file (name : List String) (content : ByteArray)
  | folder
  | vacant (name : List String)
  /-- Nothing, nor a folder that it could be in. -/
  | nowhere
  /-- A file stands where the path needs a folder. -/
  | blocked

namespace Folder

/-- The components of a path after the root. -/
def components (path : String) : List String :=
  ((cutSlashes path.toList).filter (· ≠ [])).map String.ofList

/-- The folder that a path starts from. -/
def base (path : String) : List String := if path.toList.head? = some '/' then ["/"] else []

def nameOf (path : String) : List String := base path ++ (components path).filter (· ≠ ".")

/-- The folder above one. -/
def above (here : List String) : List String :=
  if here = ["/"] then here
  else if here.all (· = "..") then ".." :: here
  else here.dropLast

def find? (f : Folder) (name : List String) : Option ByteArray :=
  (f.files.find? fun x => x.1 = name).map (·.2)

def isFolder (f : Folder) (name : List String) : Bool :=
  f.files.any fun x => name.length < x.1.length && name.isPrefixOf x.1

/-- The greatest length of a component, in bytes. -/
def longestName : Nat := 255

/-- The length in bytes that no path reaches. -/
def pathLimit : Nat := 4096

/-- Follows components from a folder.  What comes after a component that is missing or a file is not
looked at. -/
def walk (f : Folder) : List String → List String → Except FileFault Place
  | _, [] => .ok .folder
  | here, p :: rest =>
    if p = "." then walk f here rest
    else if p = ".." then walk f (above here) rest
    else if longestName < p.utf8ByteSize then .error .nameTooLong
    else
      let name := here ++ [p]
      match f.find? name with
      | some content => .ok (if rest.isEmpty then .file name content else .blocked)
      | none =>
        if f.isFolder name then walk f name rest
        else .ok (if rest.isEmpty then .vacant name else .nowhere)

/-- Whether a path can only name a folder: it ends in a slash. -/
def namesFolder (path : String) : Bool := path.toList.getLast? = some '/'

/-- What stands at a path, unless it is no path at all. -/
def look (f : Folder) (path : String) : Except FileFault Place :=
  if path.toList.contains '\x00' then .error .nullInName
  else if path = "" then .ok .nowhere
  else if pathLimit ≤ path.utf8ByteSize then .error .nameTooLong
  else
    (f.walk (base path) (components path)).map fun place =>
      match place with
      | .file name content => if namesFolder path then .blocked else .file name content
      | place => place

/-- Whether a path names anything. -/
def holds (f : Folder) (path : String) : Except FileFault Bool := do
  match ← f.look path with
  | .file _ _ => .ok true
  | .folder => .ok true
  | .vacant _ => .ok false
  | .nowhere => .ok false
  | .blocked => .error .notDirectory

def read (f : Folder) (path : String) : Except FileFault ByteArray := do
  match ← f.look path with
  | .file _ content => .ok content
  | .folder => .error .isDirectory
  | .vacant _ => .error .notFound
  | .nowhere => .error .notFound
  | .blocked => .error .notDirectory

def put (f : Folder) (name : List String) (content : ByteArray) : Folder :=
  ⟨f.files.filter (fun x => x.1 ≠ name) ++ [(name, content)]⟩

def write (f : Folder) (path : String) (content : ByteArray) : Except FileFault Folder := do
  match ← f.look path with
  | .file name _ => .ok (f.put name content)
  | .folder => .error .isDirectory
  | .vacant name => if namesFolder path then .error .isDirectory else .ok (f.put name content)
  | .nowhere => .error .notFound
  | .blocked => .error .notDirectory

def ofFiles (files : List (String × ByteArray)) : Folder :=
  files.foldl (fun f x => f.put (nameOf x.1) x.2) {}

end Folder

def textOf (content : ByteArray) : Except FileFault String :=
  match String.fromUTF8? content with
  | some s => .ok s
  | none => .error .notText

end Backplane
