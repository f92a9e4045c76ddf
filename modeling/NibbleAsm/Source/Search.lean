import NibbleAsm.Image
import NibbleAsm.Note
import NibbleAsm.Source.Line
import NibbleAsm.Text.Utf8

/-!
# Finding and reading files

A file named in the source is looked for beside the file that names it, then in each
include directory, then in the working directory.

## Main definitions

* `Search`: a file system with include directories
* `Search.find`: the first file that a name leads to
* `Search.readLines`, `Search.readWords`: a file as source or as an image
* `Search.isOpen`: whether a file is among those that led to a line
-/

namespace NibbleAsm

/-- Where files are looked for. -/
structure Search where
  files : FileSystem
  directories : List FilePath
  deriving Repr

/-- Whether a file name belongs to no file on disk. -/
def isPseudoFile (name : String) : Bool :=
  Text.startsWith '<' name

/-- A failure about the source at a location that may be known. -/
def failAt {α : Type} (cause : Cause) (location : Option Location) : Except Failure α :=
  .error (.error (.report cause location none none))

namespace Search

/-- The paths that a name may stand for, in the order in which they are tried. -/
def candidates (s : Search) (name : String) (location : Option Location) : List FilePath :=
  let path := FilePath.ofString name
  let beside :=
    match location with
    | some location =>
      if isPseudoFile location.file then []
      else [(FilePath.ofString location.file).parent.append path]
    | none => []
  beside ++ s.directories.map (·.append path) ++ [path]

/-- The first of some paths at which there is a file. -/
def firstFile (fs : FileSystem) : List FilePath → Except FileError (Option FilePath)
  | [] => .ok none
  | path :: rest => do
    if ← fs.isFile path then .ok (some path) else firstFile fs rest

/-- The file that a name leads to. -/
def find (s : Search) (name : String) (location : Option Location) : Except Failure FilePath :=
  match firstFile s.files (s.candidates name location) with
  | .ok (some path) => .ok path
  | .ok none => failAt (.missingFile name (s.directories.map FilePath.text)) location
  | .error e => .error (.fault (.file e))

/-- The content of a file. -/
def readBytes (fs : FileSystem) (path : FilePath) (location : Option Location) :
    Except Failure (List UInt8) :=
  match fs.read path.text with
  | .ok bytes => .ok bytes
  | .error e =>
    if e.kind = .embeddedNull then .error (.fault (.file e))
    else failAt (.unreadableFile path.text e.message) location

/-- The lines of a source file. -/
def readLines (fs : FileSystem) (path : FilePath) (location : Option Location) :
    Except Failure (List String) := do
  let bytes ← readBytes fs path location
  match Text.Utf8.decode bytes with
  | .ok cs => .ok (Text.lines (String.ofList (Text.unifyFeeds cs)))
  | .error fault => failAt (.unreadableFile path.text fault.message) location

/-- The words of an image file. -/
def readWords (fs : FileSystem) (path : FilePath) (location : Option Location) :
    Except Failure (List Int) := do
  Image.unpack path.text (← readBytes fs path location)

/-- The names of the files that led to a line, without those of pseudo-files. -/
def openFiles (line : SourceLine) : List String :=
  line.chain.filter fun name => !isPseudoFile name

/-- Whether a path leads to one of the files that led to a line. The files are compared by
their places, and a name that no access accepts has none. -/
def isOpen (fs : FileSystem) (line : SourceLine) (path : FilePath) : Except Failure Bool :=
  match (openFiles line).find? fun name => name.toList.contains '\x00' with
  | some name => .error (.fault (.file ⟨.embeddedNull, name⟩))
  | none =>
    .ok ((openFiles line).any fun name =>
      fs.canonical (FilePath.ofString name) == fs.canonical path)

end Search

end NibbleAsm
