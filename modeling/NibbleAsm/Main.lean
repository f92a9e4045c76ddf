import NibbleAsm.CommandLine.Run
import NibbleAsm.CommandLine.Standard

/-!
# The executable

The command works on a file system held as a value. The executable reads the directories that
the arguments name, and the working directory, into such a value, runs the command on it with
the standard toolkit, prints what the command prints and writes the files that it changed.

## Main definitions

* `readTree`: reads a directory or a file of the machine
* `main`: runs the command
-/

namespace NibbleAsm.CommandLine

/-- The name of a place on the machine. -/
def placeName (place : List String) : String :=
  "/" ++ Text.join "/" place

/-- Reads the file or the directory at a place, with all that is below it. What cannot be read
is left out, and so is a directory that is only linked to, since links may go in circles. -/
partial def readTree (fs : FileSystem) (place : List String) : IO FileSystem := do
  let root ← IO.currentDir
  let path := root / placeName place
  if (fs.lookup? place).any (· ≠ .directory) then return fs
  if ← path.isDir then
    let fs := fs.withDirectories place
    let entries ← try path.readDir catch _ => pure #[]
    entries.foldlM (fun fs e => do
      let linked := (← e.path.symlinkMetadata).type == .symlink
      if linked && (← e.path.isDir) then return fs
      readTree fs (place ++ [e.fileName])) fs
  else if ← path.pathExists then
    let content ← try some <$> IO.FS.readBinFile path catch _ => pure none
    return content.elim fs fun bytes =>
      (fs.withDirectories place.dropLast).set place (.file bytes.toList)
  else return fs

/-- The texts in an argument that may name a place: all of it, what follows a one-letter option
and what follows an equals sign. -/
def namesIn (arg : String) : List String :=
  [arg, String.ofList (arg.toList.drop 2),
    String.ofList ((arg.toList.dropWhile (· ≠ '=')).drop 1)].filter (· ≠ "")

/-- The trees that a command may read: those of the working directory and of the named places,
and those of the directories in which the named places are. -/
def treesFor (fs : FileSystem) (environment : Option String) (args : List String) :
    List (List String) :=
  let listed := (environment.getD "").toList.splitOn ':' |>.map String.ofList
  let named := (args.flatMap namesIn ++ listed).map fun name => fs.canonical (.ofString name)
  (fs.cwd :: (named ++ named.map List.dropLast)).filter (· ≠ []) |>.eraseDups

/-- The entries of a tree that are not in it before a command, or not in the same way. A command
keeps the places of a tree in order and adds new ones at its end. -/
def changes (before after : FileSystem) : List (List String × Entry) :=
  ((after.entries.zip before.entries).filter fun (a, b) => a ≠ b).map Prod.fst ++
    after.entries.drop before.entries.length

/-- Writes an entry of a tree to the machine. -/
def writeEntry (place : List String) : Entry → IO Unit
  | .directory => IO.FS.createDirAll (placeName place)
  | .file content => IO.FS.writeBinFile (placeName place) ⟨content.toArray⟩

end NibbleAsm.CommandLine

open NibbleAsm NibbleAsm.CommandLine in
/-- Runs the command on the files of the machine. -/
def main (args : List String) : IO UInt32 := do
  let environment ← IO.getEnv "VM16_INCLUDE"
  let here ← IO.currentDir
  let start := FileSystem.empty (here.components.filter (· ≠ ""))
  let before ← (treesFor start environment args).foldlM readTree start
  let out ← (← IO.getStdout).isTty
  let err ← (← IO.getStderr).isTty
  let toolkit := Toolkit.standard fun stream => if stream = .stdout then out else err
  let outcome := run toolkit before environment args
  for (place, e) in changes before outcome.files do
    writeEntry place e
  IO.print outcome.stdout
  IO.eprint outcome.stderr
  if let some f := outcome.uncaught then
    IO.eprintln f.text
  return UInt32.ofNat outcome.exitCode
