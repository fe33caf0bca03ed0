/-!
Contract: a working directory with its files.

Owns:
- files and directories below the working directory;
- following paths;
- reading and writing files, with the errors that can arise.

A path that leads out of the working directory leads to nothing.

Does not own: the files of the machine that the program runs on.
-/

namespace RequestEngine

/-- What a path can lead to. A file whose bytes are not text cannot be read. -/
inductive FileEntry where
  | text (content : String)
  | binary
  | directory
deriving DecidableEq, Repr

/-- Why a file cannot be read or written. -/
inductive FileError where
  | notFound
  | notDirectory
  | isDirectory
  | nameTooLong
  | permissionDenied
  | zeroByte
  | notText
deriving DecidableEq, Repr

def FileError.message : FileError → String
  | .notFound => "No such file or directory (os error 2)"
  | .notDirectory => "Not a directory (os error 20)"
  | .isDirectory => "Is a directory (os error 21)"
  | .nameTooLong => "File name too long (os error 36)"
  | .permissionDenied => "Permission denied (os error 13)"
  | .zeroByte => "file name contained an unexpected NUL byte"
  | .notText => "stream did not contain valid UTF-8"

/-- An entry with the components of its path from the working directory. -/
structure FileRecord where
  path : List String
  entry : FileEntry
deriving DecidableEq, Repr

abbrev Files := List FileRecord

namespace Files

/-- The entry at a list of components. The working directory itself, and
everything that some entry lies below, is a directory. -/
def lookup? (files : Files) (path : List String) : Option FileEntry :=
  match files.find? (·.path = path) with
  | some record => some record.entry
  | none =>
      if path.isEmpty ∨ files.any (fun record => path.isPrefixOf record.path) then
        some .directory
      else none

def greatestNameLength : Nat := 255

/-- Follows the components of a path below a directory. The last component need
not exist; any earlier one has to be a directory. -/
def follow (files : Files) (directory : List String) : List String →
    Except FileError (List String)
  | [] => .ok directory
  | component :: rest =>
      if component = "" ∨ component = "." then follow files directory rest
      else if component = ".." then
        if directory.isEmpty then .error .notFound else follow files directory.dropLast rest
      else if greatestNameLength < component.utf8ByteSize then .error .nameTooLong
      else
        let path := directory ++ [component]
        if rest.isEmpty then .ok path
        else
          match files.lookup? path with
          | some .directory => follow files path rest
          | some _ => .error .notDirectory
          | none => .error .notFound

def locate (files : Files) (path : String) : Except FileError (List String) :=
  if path.any (· = '\x00') then .error .zeroByte
  else if path = "" ∨ path.startsWith "/" then .error .notFound
  else follow files [] (path.splitToList (· = '/'))

def contains (files : Files) (path : String) : Bool :=
  match files.locate path with
  | .ok components => (files.lookup? components).isSome
  | .error _ => false

def read (files : Files) (path : String) : Except FileError String := do
  let components ← files.locate path
  match files.lookup? components with
  | some (.text content) => .ok content
  | some .binary => .error .notText
  | some .directory => .error .isDirectory
  | none => .error .notFound

/-- Puts an entry at a list of components in place of an earlier one. -/
def put (files : Files) (components : List String) (entry : FileEntry) : Files :=
  files.filter (·.path ≠ components) ++ [⟨components, entry⟩]

/-- Writes a file. The directory that it lies in has to exist, and a path that
ends with a slash cannot name a file. -/
def write (files : Files) (path content : String) : Except FileError Files := do
  let components ← files.locate (path.dropEndWhile (· = '/')).toString
  if path.endsWith "/" then throw .isDirectory
  match files.lookup? components with
  | some .directory => throw .isDirectory
  | some _ | none => pure (files.put components (.text content))

end Files

end RequestEngine
