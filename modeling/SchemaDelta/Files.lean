import SchemaDelta.Text.Bytes

/-!
# Files

Paths, what can be wrong with them, and a folder of texts.
-/

namespace SchemaDelta

inductive FileError
  | notFound
  | notDirectory
  | isDirectory
  | nameTooLong
  | nulInPath
  | notText
  | other (text : String)
  deriving Repr, DecidableEq

def FileError.message : FileError → String
  | notFound => "No such file or directory (os error 2)"
  | notDirectory => "Not a directory (os error 20)"
  | isDirectory => "Is a directory (os error 21)"
  | nameTooLong => "File name too long (os error 36)"
  | nulInPath => "file name contained an unexpected NUL byte"
  | notText => "stream did not contain valid UTF-8"
  | other text => text

namespace Path

def isAbsolute (path : String) : Bool :=
  path.toList.head? = some '/'

def join (directory path : String) : String :=
  if isAbsolute path || directory.isEmpty then path
  else if directory.toList.getLast? = some '/' then directory ++ path
  else directory ++ "/" ++ path

def parent (path : String) : String :=
  let front := (path.toList.reverse.dropWhile (· ≠ '/')).dropWhile (· = '/')
  if front.isEmpty && isAbsolute path then "/" else String.ofList front.reverse

def names : List Char → List (List Char)
  | [] => [[]]
  | '/' :: cs => [] :: names cs
  | c :: cs =>
      match names cs with
      | name :: others => (c :: name) :: others
      | [] => [[c]]

end Path

/-- Texts under their paths in a directory.  A later text replaces an earlier
one. -/
structure Folder where
  location : String
  files : List (String × String)

/-- Where a path leads. -/
inductive Place
  /-- The names from the folder on. -/
  | inside (names : List String)
  /-- A directory above the folder. -/
  | above
  deriving Repr, DecidableEq

namespace Folder

/-- The length of a name, in bytes, that is not exceeded. -/
def nameLimit : Nat := 255

/-- The length of a path, in bytes, that is not exceeded. -/
def pathLimit : Nat := 4095

def pathOf (names : List String) : String :=
  "/".intercalate names

def file? (folder : Folder) : Place → Option String
  | .inside names => (folder.files.reverse.find? (·.1 = pathOf names)).map (·.2)
  | .above => none

def isDirectory (folder : Folder) : Place → Bool
  | .inside [] | .above => true
  | .inside names =>
      folder.files.any fun (path, _) => (pathOf names ++ "/").toList.isPrefixOf path.toList

def parentOf : Place → Place
  | .inside [] | .above => .above
  | .inside names => .inside names.dropLast

/-- Follows names from a place.  Only the last one may be missing; nothing is
found above the folder. -/
def follow (folder : Folder) : (place : Place) → List (List Char) → Except FileError Place
  | place, [] => .ok place
  | place, name :: names =>
      if !folder.isDirectory place then .error .notDirectory
      else if name = [] || name = ['.'] then folder.follow place names
      else if name = ['.', '.'] then folder.follow (parentOf place) names
      else if nameLimit < Text.byteLength name then .error .nameTooLong
      else
        match place with
        | .above => .error .notFound
        | .inside front =>
            let next := .inside (front ++ [String.ofList name])
            if names.isEmpty || (folder.file? next).isSome || folder.isDirectory next then
              folder.follow next names
            else
              .error .notFound

def locate (folder : Folder) (path : String) : Except FileError Place :=
  let chars := path.toList
  let root := (folder.location ++ "/").toList
  if '\x00' ∈ chars then .error .nulInPath
  else if pathLimit < Text.byteLength chars then .error .nameTooLong
  else if root.isPrefixOf chars then
    folder.follow (.inside []) (Path.names (chars.drop root.length))
  else if Path.isAbsolute path then folder.follow .above (Path.names chars)
  else .error .notFound

def read (folder : Folder) (path : String) : Except FileError String := do
  let place ← folder.locate path
  match folder.file? place with
  | some text => return text
  | none => throw (if folder.isDirectory place then .isDirectory else .notFound)

/-- Writes behind the text of a file, which is made if it is missing. -/
def append (folder : Folder) (path text : String) : Except FileError Folder := do
  match ← folder.locate path with
  | .above => throw .isDirectory
  | .inside names =>
      if folder.isDirectory (.inside names) then
        throw .isDirectory
      let earlier := (folder.file? (.inside names)).getD ""
      return { folder with files := folder.files ++ [(pathOf names, earlier ++ text)] }

end Folder

end SchemaDelta
