import DomainColoring.Export.Document

/-!
# Disks

Files and directories as a value, as far as exports touch them: directories are made where they are missing, a file is emptied
before it is written, and a file that is never written to its end is of no use to a reader.
-/

namespace DomainColoring

/-- Why a file cannot be made, or read. -/
inductive FileError where
  | notFound
  | alreadyExists
  | notADirectory
  | isADirectory
  | nameTooLong
  /-- A path with a null character in it. -/
  | nullInPath
  | invalidText
  /-- Anything else, in the words of the system. -/
  | other (description : String)
  deriving DecidableEq, Repr

/-- The error in the words of the system. -/
def FileError.message : FileError → String
  | notFound => "I/O error: No such file or directory (os error 2)"
  | alreadyExists => "I/O error: File exists (os error 17)"
  | notADirectory => "I/O error: Not a directory (os error 20)"
  | isADirectory => "I/O error: Is a directory (os error 21)"
  | nameTooLong => "I/O error: File name too long (os error 36)"
  | nullInPath => "I/O error: file name contained an unexpected NUL byte"
  | invalidText => "I/O error: stream did not contain valid UTF-8"
  | other description => "I/O error: " ++ description

/-- A path from the root of the disk, name by name. -/
abbrev Location := List String

/-- What a file holds. -/
inductive Content where
  | document (d : Document)
  /-- A document that was begun and not finished. -/
  | unfinished
  /-- Anything else. -/
  | other
  deriving DecidableEq, Repr

/-- Directories and files by their locations; the root is always there. -/
structure Disk where
  directories : List Location
  files : List (Location × Content)
  deriving Repr

/-- What stands between the slashes of a path. -/
def pathParts (path : String) : List String :=
  ((path.toList.splitOnP (· == '/')).map String.ofList).filter (· ≠ "")

/-- The names along a path; a single dot is no name. -/
def pathNames (path : String) : List String :=
  (pathParts path).filter (· ≠ ".")

/-- The directory part of a path with a name put behind it. -/
def joinPath (directory name : String) : String :=
  if directory.isEmpty || directory.endsWith "/" then directory ++ name else directory ++ "/" ++ name

namespace Disk

/-- Whether there is a directory. -/
def isDirectory (d : Disk) (location : Location) : Bool :=
  location.isEmpty || d.directories.contains location

/-- What a file holds, if there is one. -/
def content? (d : Disk) (location : Location) : Option Content :=
  (d.files.find? (·.1 == location)).map (·.2)

/-- Gives a file a new content. -/
def write (d : Disk) (location : Location) (content : Content) : Disk :=
  { d with files := (location, content) :: d.files.filter (·.1 ≠ location) }

/-- Where names lead from a directory, if there are directories all the way. -/
def resolve? (d : Disk) (base : Location) : List String → Option Location
  | [] => some base
  | name :: rest =>
    if d.isDirectory base then d.resolve? (if name = ".." then base.dropLast else base ++ [name]) rest else none

/-- Goes along names from a directory and makes the directories that are missing. A file in the way is an error, of another kind
at the end than before. The disk is what has come of it so far, also when it fails. -/
def makeDirectories (d : Disk) (base : Location) : List String → Except FileError Location × Disk
  | [] => (.ok base, d)
  | ".." :: rest => d.makeDirectories base.dropLast rest
  | name :: rest =>
    let location := base ++ [name]
    if name.utf8ByteSize > 255 then (.error .nameTooLong, d)
    else if (d.content? location).isSome then (.error (if rest.isEmpty then .alreadyExists else .notADirectory), d)
    else if d.isDirectory location then d.makeDirectories location rest
    else { d with directories := location :: d.directories }.makeDirectories location rest

/-- Why a path that ends in a dot is no file: it leads to a directory, which has to be there. -/
def dotError (d : Disk) (location : Location) : FileError :=
  if d.isDirectory location then .isADirectory
  else if (d.content? location).isSome then .notADirectory
  else .notFound

/-- Where the file of a path is in a directory, if there can be one. -/
def fileLocation (d : Disk) (base : Location) (path : String) : Except FileError Location :=
  match (pathNames path).getLast? with
  | none => .error (if path.isEmpty then .notFound else .isADirectory)
  | some name =>
    let location := base ++ [name]
    if name = ".." then .error .isADirectory
    else if (pathParts path).getLast? = some "." then .error (d.dotError location)
    else if path.endsWith "/" then .error .isADirectory
    else if name.utf8ByteSize > 255 then .error .nameTooLong
    else if d.isDirectory location then .error .isADirectory
    else .ok location

/-- Makes an empty file at a path, or empties the file that is there, and makes the directories on the way to it. The disk is what
has come of it so far, also when it fails. -/
def create (d : Disk) (path : String) : Except FileError Location × Disk :=
  if path.toList.any (·.toNat = 0) then (.error .nullInPath, d)
  else match d.makeDirectories [] (pathNames path).dropLast with
    | (.error error, d) => (.error error, d)
    | (.ok base, d) =>
      match d.fileLocation base path with
      | .error error => (.error error, d)
      | .ok location => (.ok location, d.write location .unfinished)

end Disk

end DomainColoring
