import NibbleAsm.Program.Listing

/-!
# The assembler

An assembler holds include directories and definitions that apply to every source, and the
last program it assembled. Each source is assembled from a fresh table of symbols, and the last
program is replaced when the assembly is over.

## Main definitions

* `Source`: what is assembled
* `Assembler.assemble`: the program of a source
* `Assembler.Request`, `Assembler.Answer`: what an assembler can be asked, and its answers
* `Assembler.Session.perform`: the effect of a request on an assembler and its file system
-/

namespace NibbleAsm

/-- What is assembled: texts of lines, or a whole text, under a file name, or a file. -/
inductive Source where
  | lines (file : String) (texts : List String)
  | text (file : String) (text : String)
  | file (path : FilePath)
  deriving DecidableEq, Repr

/-- The file name of sources that have none. -/
def inputName : String := "<input>"

/-- Include directories and definitions for every source, and the last program. -/
structure Assembler where
  directories : List FilePath
  defines : Bindings Int
  last : Option Program
  deriving Repr

namespace Assembler

/-- An assembler that has not assembled anything. -/
def new (directories : List FilePath) (defines : Bindings Int) : Assembler :=
  ⟨directories, defines, none⟩

/-- Defines symbols one after the other. -/
def defineAll : List (String × Int) → Effect SymbolTable Unit
  | [] => pure ()
  | (name, value) :: rest => do
    SymbolTable.define name value .define
    defineAll rest

/-- The program of lines under a file name. -/
def assembleLines (a : Assembler) (fs : FileSystem) (file : String) (texts : List String) :
    Traced Program := do
  let symbols ← (defineAll a.defines.toList).exec .predefined
  let layout ← Layout.build ⟨fs, a.directories⟩ (Cursor.empty.splice file texts none) symbols
  Program.ofLayout layout

/-- The program of a source. -/
def assemble (a : Assembler) (fs : FileSystem) : Source → Traced Program
  | .lines file texts => a.assembleLines fs file texts
  | .text file text => a.assembleLines fs file (Text.lines text)
  | .file path => do
    .notes [.assembling path.text]
    let texts ← .ofExcept (Search.readLines fs path none)
    a.assembleLines fs path.text texts

/-- The last program. -/
def program (a : Assembler) : Except Failure Program :=
  match a.last with
  | some p => .ok p
  | none => fail .nothingAssembled

/-- What an assembler can be asked. -/
inductive Request where
  | assemble (source : Source)
  | define (name : String) (value : Int)
  | addDirectory (path : FilePath)
  | words
  | symbols
  | listing
  | writeBinary (name : String)
  | writeListing (name : String)
  | writeSymbols (name : String)
  | writeImage (name : String) (words : List Int)
  | readImage (name : String)
  deriving Repr

/-- The answers of an assembler. -/
inductive Answer where
  | program (program : Program)
  | done
  | directories (paths : List FilePath)
  | words (words : List Int)
  | symbols (symbols : Bindings Int)
  | listing (text : String)
  deriving Repr

/-- An assembler with the file system it works on. -/
structure Session where
  assembler : Assembler
  files : FileSystem
  deriving Repr

/-- Writes a file. -/
def writeFile (name : String) (bytes : List UInt8) : Effect FileSystem Unit := do
  let fs ← .get
  .set (← .ofExcept ((fs.write name bytes).mapError fun e => .fault (.file e)))

/-- Writes an image, once its words are packed. -/
def writeImage (name : String) (words : List Int) : Effect FileSystem Unit := do
  let bytes ← .ofExcept (Image.pack words)
  writeFile (FilePath.ofString name).text bytes

/-- Writes the image of a program. -/
def writeBinary (name : String) (p : Program) : Effect FileSystem Unit := do
  writeImage name p.words
  .notes [.wrote p.size name]

/-- Writes the listing of a program. -/
def writeListing (name : String) (p : Program) : Effect FileSystem Unit :=
  writeFile (FilePath.ofString name).text (textBytes p.listingFile)

/-- Writes the symbols of a program. -/
def writeSymbols (name : String) (p : Program) : Effect FileSystem Unit :=
  writeFile name (textBytes p.symbolFile)

/-- The words of an image file. -/
def readImage (fs : FileSystem) (name : String) : Except Failure (List Int) :=
  let path := (FilePath.ofString name).text
  match fs.read path with
  | .error e => .error (.fault (.file e))
  | .ok bytes => Image.unpack path bytes

namespace Session

/-- An operation on the files of a session. -/
def onFiles {α : Type} (x : Effect FileSystem α) : Effect Session α := fun s =>
  let done := x s.files
  ({ s with files := done.1 }, done.2)

/-- The last program of the assembler. -/
def program : Effect Session Program := do
  .ofExcept (← .get).assembler.program

/-- Adds a directory to those that are searched, if it is one. -/
def addDirectory (path : FilePath) : Effect Session Unit := do
  let s ← .get
  if ← .ofExcept ((s.files.isDirectory path).mapError fun e => .fault (.file e)) then
    let directories := s.assembler.directories ++ [path]
    .set { s with assembler := { s.assembler with directories := directories } }
  else
    .notes [.noDirectory path.text]

/-- What is done on a request, and the answer to it. -/
def handle : Request → Effect Session Answer
  | .assemble source => do
    let s ← .get
    let p ← .lift (s.assembler.assemble s.files source)
    .set { s with assembler := { s.assembler with last := some p } }
    return .program p
  | .define name value => do
    let s ← .get
    let defines := s.assembler.defines.insert name value
    .set { s with assembler := { s.assembler with defines := defines } }
    return .done
  | .addDirectory path => do
    addDirectory path
    return .directories (← .get).assembler.directories
  | .words => do
    return .words (← program).words
  | .symbols => do
    return .symbols (← program).symbols
  | .listing => do
    return .listing (← program).listing
  | .writeBinary name => do
    onFiles (writeBinary name (← program))
    return .done
  | .writeListing name => do
    onFiles (writeListing name (← program))
    return .done
  | .writeSymbols name => do
    onFiles (writeSymbols name (← program))
    return .done
  | .writeImage name words => do
    onFiles (writeImage name words)
    return .done
  | .readImage name => do
    return .words (← .ofExcept (readImage (← .get).files name))

/-- The session after a request, and the answer. -/
def perform (s : Session) (r : Request) : Session × Traced Answer :=
  handle r s

end Session

end Assembler

end NibbleAsm
