import Backplane.Folder
/-!
# `Backplane.Bundle.Reference`: where the library of a unit lies

A reference of several components, or one with an extension, is the path of a library.  Any other is
a bare name `n`: its library is called `libn.so` and lies in the unit folder.

`Reference.locate` models `locate` of the `UnitResolver`.
-/
namespace Backplane.Reference

/-- The parts of a path between slashes that name something: neither nothing nor the folder at
hand. -/
def named (path : List Char) : List (List Char) :=
  (cutSlashes path).filter fun p => p ≠ [] && p ≠ ['.']

/-- Whether a path begins with a component that names nothing further: the root, or the folder at
hand. -/
def hasBase (path : List Char) : Bool :=
  path.head? = some '/' || (cutSlashes path).head? = some ['.']

def componentCount (path : List Char) : Nat :=
  (named path).length + if hasBase path then 1 else 0

/-- The last component of a path, unless it leads upwards. -/
def fileName? (path : List Char) : Option (List Char) :=
  (named path).getLast?.filter fun p => p ≠ ['.', '.']

/-- Whether a file name has an extension: a dot that is not its first character. -/
def hasExtension (name : List Char) : Bool := (name.drop 1).contains '.'

/-- Whether a reference is the path of a library. -/
def isPath (reference : String) : Bool :=
  let r := reference.toList
  1 < componentCount r || (fileName? r).any hasExtension

def libraryFile (name : String) : String := "lib" ++ name ++ ".so"

def join (folder file : String) : String :=
  if folder = "" then file
  else if folder.toList.getLast? = some '/' then folder ++ file
  else folder ++ "/" ++ file

/-- The path of the library of a reference. -/
def locate (folder : Option String) (reference : String) : String :=
  if isPath reference then reference
  else
    match folder with
    | some d => join d (libraryFile reference)
    | none => libraryFile reference

end Backplane.Reference
