/-!
# Source files

Reading a file by its path, and the ways in which that fails. `Files` is a working directory given by
the files in it; a path is followed one name at a time, as an operating system does.
-/

namespace CheckedScript

inductive FileError where
  | notFound
  | notADirectory
  | isADirectory
  | nameTooLong
  | nulByte
  /-- Any other failure, in the words of the system. -/
  | system (message : String)
deriving DecidableEq, Inhabited

def FileError.message : FileError → String
  | notFound => "No such file or directory (os error 2)"
  | notADirectory => "Not a directory (os error 20)"
  | isADirectory => "Is a directory (os error 21)"
  | nameTooLong => "File name too long (os error 36)"
  | nulByte => "file name contained an unexpected NUL byte"
  | system message => message

/-- How a path is read. -/
abbrev FileReader := String → Except FileError String

/-- The files of a directory by their paths, each a list of names. -/
abbrev Files := List (List String × String)

namespace Files

def ofPaths (files : List (String × String)) : Files :=
  files.map fun (path, text) => (path.splitOn "/", text)

def file? (files : Files) (path : List String) : Option String :=
  (files.find? fun entry => entry.1 == path).map Prod.snd

def isDirectory (files : Files) (path : List String) : Bool :=
  path.isEmpty || files.any fun entry => path.isPrefixOf entry.1 && path != entry.1

/-- Follows the names of a path from the directory `reached`. -/
def follow (files : Files) : (reached : List String) → List String → Except FileError String
  | _, [] => .error .isADirectory
  | reached, name :: rest =>
    if name.isEmpty || name == "." then follow files reached rest
    else if name == ".." then
      if reached.isEmpty then .error .notFound else follow files reached.dropLast rest
    else if 255 < name.utf8ByteSize then .error .nameTooLong
    else
      let path := reached ++ [name]
      match files.file? path with
      | some text => if rest.isEmpty then .ok text else .error .notADirectory
      | none => if files.isDirectory path then follow files path rest else .error .notFound

/-- Reads the file at a path; only what lies in the working directory can be found. -/
def read (files : Files) : FileReader := fun path =>
  if path.toList.contains '\x00' then .error .nulByte
  else if 4096 ≤ path.utf8ByteSize then .error .nameTooLong
  else if path.isEmpty || path.startsWith "/" then .error .notFound
  else files.follow [] (path.splitOn "/")

end Files

end CheckedScript
