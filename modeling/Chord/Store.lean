import Chord.Table

/-!
# Files

The files of a directory as a value.

**Input.** Relative paths.

**Results.** A `Store` maps paths to contents. `read` and `write` fail as they do on a disk: a path
may lead nowhere, to a directory, through something that is no directory, or to bytes that are no
text.
-/

namespace Chord

/-- Why a file cannot be read or written. -/
inductive FileError where
  | notFound
  | notDirectory
  | isDirectory
  | notText
  /-- The system does not allow it. -/
  | denied
deriving DecidableEq, Repr

/-- The wording of a file error. -/
def FileError.message : FileError → String
  | .notFound => "No such file or directory (os error 2)"
  | .notDirectory => "Not a directory (os error 20)"
  | .isDirectory => "Is a directory (os error 21)"
  | .notText => "stream did not contain valid UTF-8"
  | .denied => "Permission denied (os error 13)"

/-- Files by path, the parts of a path joined by slashes. -/
structure Store where
  files : Table ByteArray := .empty
  /-- Directories that may have no files in them. -/
  directories : List String := []
  /-- Paths that must not be read or written. -/
  closed : List String := []

namespace Store

/-- The store without files. -/
def empty : Store := {}

instance : Inhabited Store := ⟨empty⟩

/-- The parts of a path; a dot stands for no part. -/
def parts (path : String) : List String :=
  (path.splitOn "/").filter fun part => part != "" && part != "."

/-- The path of parts. -/
def join (ps : List String) : String :=
  "/".intercalate ps

/-- Whether parts lead to a directory: a known one, one above, or one with a file below it. -/
def isDirectory (s : Store) (ps : List String) : Bool :=
  ps.all (· == "..") || s.directories.contains (join ps)
    || s.files.keys.any (·.startsWith (join ps ++ "/"))

/-- Why parts do not lead to a place where a file can be: some part in front is missing or is a
file itself. -/
def blocked? (s : Store) (ps : List String) : Option FileError :=
  let fronts := (List.range ps.length).map ps.take
  if fronts.any fun front => s.files.contains (join front) then some .notDirectory
  else if !fronts.all s.isDirectory then some .notFound
  else if s.closed.contains (join ps) then some .denied
  else none

/-- The bytes of a file. -/
def readBytes (s : Store) (path : String) : Except FileError ByteArray :=
  let ps := parts path
  if path.isEmpty then .error .notFound
  else if s.isDirectory ps then .error .isDirectory
  else
    match s.blocked? ps with
    | some e => .error e
    | none =>
        match s.files.get? (join ps) with
        | none => .error .notFound
        | some bytes => if path.endsWith "/" then .error .notDirectory else .ok bytes

/-- The text of a file. -/
def read (s : Store) (path : String) : Except FileError String := do
  let bytes ← s.readBytes path
  match String.fromUTF8? bytes with
  | some text => .ok text
  | none => .error .notText

/-- Whether a path leads to anything. -/
def leads (s : Store) (path : String) : Bool :=
  match s.readBytes path with
  | .ok _ => true
  | .error .isDirectory => true
  | .error .denied => true
  | .error _ => false

/-- Puts bytes into a file, which need not exist. -/
def writeBytes (s : Store) (path : String) (bytes : ByteArray) : Except FileError Store :=
  let ps := parts path
  if path.isEmpty then .error .notFound
  else if s.isDirectory ps then .error .isDirectory
  else
    match s.blocked? ps with
    | some e => .error e
    | none =>
        if path.endsWith "/" then
          .error (if s.files.contains (join ps) then .notDirectory else .isDirectory)
        else .ok { s with files := s.files.insert (join ps) bytes }

/-- Puts text into a file, which need not exist. -/
def write (s : Store) (path text : String) : Except FileError Store :=
  s.writeBytes path text.toUTF8

end Store

end Chord
