import NibbleAsm.FilePath
import NibbleAsm.Text.Quoted

/-!
# File systems

A file system is a finite tree of directories and files, with a working directory from
which relative names are followed. Names are followed part by part, so each failure is
found at the first part that cannot be passed.

## Main definitions

* `FileSystem`: the entries of a tree and its working directory
* `FileSystem.entry`: the entry that a name leads to
* `FileSystem.isFile`, `FileSystem.isDirectory`: the kind of entry behind a path
* `FileSystem.read`, `FileSystem.write`: the content of a file
* `FileSystem.canonical`: the place of a path in the tree, whatever its spelling
* `FileError.message`: the description of a failed access
-/

namespace NibbleAsm

/-- Why a name cannot be followed or used. -/
inductive FileErrorKind where
  | noEntry
  | notDirectory
  | isDirectory
  | nameTooLong
  | embeddedNull
  deriving DecidableEq, Repr

/-- A failed access, with the name as it was given. -/
structure FileError where
  kind : FileErrorKind
  name : String
  deriving DecidableEq, Repr

/-- The description of a failed access. -/
def FileError.message (e : FileError) : String :=
  match e.kind with
  | .noEntry => "[Errno 2] No such file or directory: " ++ Text.quote e.name
  | .notDirectory => "[Errno 20] Not a directory: " ++ Text.quote e.name
  | .isDirectory => "[Errno 21] Is a directory: " ++ Text.quote e.name
  | .nameTooLong => "[Errno 36] File name too long: " ++ Text.quote e.name
  | .embeddedNull => "embedded null byte"

/-- Whether a failure only says that there is nothing at a name. -/
def FileErrorKind.isAbsence : FileErrorKind → Bool
  | noEntry | notDirectory | embeddedNull => true
  | isDirectory | nameTooLong => false

/-- What stands at a place of the tree. -/
inductive Entry where
  | directory
  | file (content : List UInt8)
  deriving DecidableEq, Repr

/-- A finite tree of entries. A place is the list of names that leads to it from the
root; the root itself is a directory. -/
structure FileSystem where
  cwd : List String
  entries : List (List String × Entry)
  deriving Repr

/-- The longest name of an entry, in bytes. -/
def maxNameBytes : Nat := 255

/-- The longest name that can be followed, in bytes. -/
def maxPathBytes : Nat := 4095

namespace FileSystem

/-- The entry at a place. -/
def lookup? (fs : FileSystem) (place : List String) : Option Entry :=
  if place = [] then some .directory else fs.entries.lookup place

/-- The tree with nothing in it but an empty working directory. -/
def empty (cwd : List String) : FileSystem where
  cwd := cwd
  entries := (List.range cwd.length).map fun i => (cwd.take (i + 1), .directory)

/-- Puts an entry at a place, over the entry that may be there. -/
def setEntries (place : List String) (e : Entry) :
    List (List String × Entry) → List (List String × Entry)
  | [] => [(place, e)]
  | (p, old) :: rest =>
    if p = place then (place, e) :: rest else (p, old) :: setEntries place e rest

/-- The tree with an entry put at a place. -/
def set (fs : FileSystem) (place : List String) (e : Entry) : FileSystem :=
  { fs with entries := setEntries place e fs.entries }

/-- The place that a path leads to, by its parts alone. -/
def canonical (fs : FileSystem) (p : FilePath) : List String :=
  let start := if p.anchor = .relative then fs.cwd else []
  p.parts.foldl (fun place part => if part = ".." then place.dropLast else place ++ [part]) start

/-- Follows names from a place. Every name has to be followed from a directory and has to
lead to an entry. -/
def follow (fs : FileSystem) (place : List String) :
    List String → Except FileErrorKind (List String)
  | [] => .ok place
  | name :: rest =>
    match fs.lookup? place with
    | none => .error .noEntry
    | some (.file _) => .error .notDirectory
    | some .directory =>
      if name = "." then follow fs place rest
      else if name = ".." then follow fs place.dropLast rest
      else if name.utf8ByteSize > maxNameBytes then .error .nameTooLong
      else if (fs.lookup? (place ++ [name])).isNone then .error .noEntry
      else follow fs (place ++ [name]) rest

/-- The place where following a name starts. -/
def start (fs : FileSystem) (name : String) : List String :=
  if Anchor.ofString name = .relative then fs.cwd else []

/-- Rejects a name that no access accepts. -/
def checkName (name : String) : Except FileErrorKind Unit :=
  if name.toList.contains '\x00' then .error .embeddedNull
  else if name.utf8ByteSize > maxPathBytes then .error .nameTooLong
  else if name = "" then .error .noEntry
  else .ok ()

/-- The names to follow for a text; a slash at the end asks for a directory. -/
def steps (name : String) : List String :=
  let parts := slashParts name
  let named := parts.filter (· ≠ "")
  if parts.getLast? = some "" then named ++ ["."] else named

/-- The entry that a name leads to. -/
def entry (fs : FileSystem) (name : String) : Except FileError Entry :=
  let found := do
    checkName name
    let place ← fs.follow (fs.start name) (steps name)
    match fs.lookup? place with
    | some e => .ok e
    | none => .error FileErrorKind.noEntry
  found.mapError (⟨·, name⟩)

/-- Whether a condition holds of the entry at a path. A name too long to look up is an error,
a name that leads nowhere is not. -/
def entryIs (fs : FileSystem) (p : FilePath) (holds : Entry → Bool) : Except FileError Bool :=
  match fs.entry p.text with
  | .ok e => .ok (holds e)
  | .error e => if e.kind.isAbsence then .ok false else .error e

/-- Whether there is a file at a path. -/
def isFile (fs : FileSystem) (p : FilePath) : Except FileError Bool :=
  fs.entryIs p fun
    | .file _ => true
    | .directory => false

/-- Whether there is a directory at a path. -/
def isDirectory (fs : FileSystem) (p : FilePath) : Except FileError Bool :=
  fs.entryIs p fun
    | .file _ => false
    | .directory => true

/-- The content of the file that a name leads to. -/
def read (fs : FileSystem) (name : String) : Except FileError (List UInt8) :=
  match fs.entry name with
  | .ok (.file content) => .ok content
  | .ok .directory => .error ⟨.isDirectory, name⟩
  | .error e => .error e

/-- The place at which a name asks for a file to be written. -/
def writePlace (fs : FileSystem) (name : String) : Except FileErrorKind (List String) := do
  checkName name
  let parts := slashParts name
  let named := parts.filter (· ≠ "")
  let directory ← fs.follow (fs.start name) named.dropLast
  match fs.lookup? directory, named.getLast? with
  | some .directory, some last =>
    if last = "." ∨ last = ".." ∨ parts.getLast? = some "" then .error .isDirectory
    else if last.utf8ByteSize > maxNameBytes then .error .nameTooLong
    else .ok (directory ++ [last])
  | some .directory, none => .error .isDirectory
  | some (.file _), _ => .error .notDirectory
  | none, _ => .error .noEntry

/-- The tree after a file is written under a name. -/
def write (fs : FileSystem) (name : String) (content : List UInt8) :
    Except FileError FileSystem :=
  match fs.writePlace name with
  | .error kind => .error ⟨kind, name⟩
  | .ok place =>
    if fs.lookup? place = some .directory then .error ⟨.isDirectory, name⟩
    else .ok (fs.set place (.file content))

/-- The tree with the directories that lead to a place. -/
def withDirectories (fs : FileSystem) (place : List String) : FileSystem :=
  (List.range place.length).foldl (fun fs i =>
    let p := place.take (i + 1)
    if (fs.lookup? p).isNone then fs.set p .directory else fs) fs

/-- The tree with a directory at a path and all directories that lead to it. -/
def withDirectory (fs : FileSystem) (p : FilePath) : FileSystem :=
  fs.withDirectories (fs.canonical p)

/-- The tree with a file at a path and all directories that lead to it. -/
def withFile (fs : FileSystem) (p : FilePath) (content : List UInt8) : FileSystem :=
  let place := fs.canonical p
  (fs.withDirectories place.dropLast).set place (.file content)

end FileSystem

end NibbleAsm
