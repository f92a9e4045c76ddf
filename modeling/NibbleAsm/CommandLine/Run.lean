import NibbleAsm.Assembler
import NibbleAsm.CommandLine.Report

/-!
# The command

The command assembles a file, prints its listing and its words, and writes the image, the
listing and the symbols to the files it is asked to write. A toolkit reads its arguments and prints
its texts; the command itself turns definitions among the arguments into symbols.

## Main definitions

* `parseDefines`: the symbols of definitions
* `Outcome`: what a command prints, leaves behind and ends with
* `execute`: the effect of settings
* `run`: the effect of arguments
-/

namespace NibbleAsm.CommandLine

/-- The symbol and the value of a definition; without an equals sign the value is one. -/
def parseDefine (definition : String) : Except Refusal (String × Int) :=
  match Text.cutAt '=' definition with
  | (name, none) => .ok (Text.trim name, 1)
  | (name, some value) =>
    match Literal.parse .word (Text.trim value) with
    | .ok value => .ok (Text.trim name, value)
    | .error (.error d) =>
      .error (.badParameter ("invalid value in " ++ definition ++ ": " ++ d.message))
    | .error f => .error (.uncaught f)

/-- The symbols of definitions, each with its last value. -/
def parseDefines (definitions : List String) : Except Refusal (Bindings Int) := do
  return .ofList (← definitions.mapM parseDefine)

/-- The end of a command, and the files it leaves behind. -/
structure Outcome extends Ending where
  files : FileSystem
  deriving Repr

/-- The lines of a log on standard error: warnings, or with levels everything. -/
def logLines (verbose : Bool) (log : List Note) : List String :=
  if verbose then log.map fun n => n.text ++ "\n"
  else (log.filter (·.level = .warning)).map fun n => n.message ++ "\n"

/-- A command on its way. -/
structure Progress where
  stdout : List String
  stderr : List String
  files : FileSystem

variable (K : Toolkit) (verbose : Bool)

namespace Progress

/-- Prints a text. -/
def print (p : Progress) (text : String) : Progress :=
  { p with stdout := p.stdout ++ [K.echo .stdout text] }

/-- Prints a text if the command is to tell all it does. -/
def tell (p : Progress) (text : String) : Progress :=
  if verbose then p.print K text else p

/-- Notes what was logged. -/
def log (p : Progress) (notes : List Note) : Progress :=
  { p with stderr := p.stderr ++ logLines verbose notes }

/-- The end of a command. -/
def finish (p : Progress) (report : Report) : Outcome where
  exitCode := report.exitCode
  stdout := Text.join "" p.stdout
  stderr := Text.join "" p.stderr ++ report.text
  files := p.files
  uncaught := none

/-- The end of a command that failed. -/
def abort (p : Progress) (f : Failure) : Outcome :=
  p.finish (f.trouble.report K (some "Assembly") verbose)

/-- Goes on with an operation, or ends the command with its failure. -/
def proceed {α : Type} (p : Progress) (x : Traced α) (next : Progress → α → Outcome) : Outcome :=
  let p := p.log verbose x.log
  match x.result with
  | .ok a => next p a
  | .error f => p.abort K verbose f

/-- Writes a file if a path is given, tells of it, and goes on. -/
def save (p : Progress) (path : Option FilePath) (message : FilePath → String)
    (write : String → Effect FileSystem Unit) (next : Progress → Outcome) : Outcome :=
  match path with
  | none => next p
  | some path =>
    let (files, written) := write path.text p.files
    let p := { p with files := files }
    p.proceed K verbose written fun p _ => next (p.tell K verbose (message path))

end Progress

/-- The effect of settings. -/
def execute (fs : FileSystem) (s : Settings) : Outcome :=
  let assembler := Assembler.new s.directories s.defines
  let p : Progress := ⟨[], [], fs⟩
  let p := p.tell K s.verbose ("Assembling " ++ s.input.text ++ "...")
  p.proceed K s.verbose (assembler.assemble fs (.file s.input)) fun p program =>
    let words := toString program.size ++ " words"
    let p := ((p.print K program.listing).print K "").print K program.dump
    p.save K s.verbose s.output (fun path => "Wrote " ++ words ++ " to " ++ path.text)
      (Assembler.writeBinary · program) fun p =>
    p.save K s.verbose s.listing (fun path => "Wrote listing to " ++ path.text)
      (Assembler.writeListing · program) fun p =>
    p.save K s.verbose s.symbols (fun path => "Wrote symbols to " ++ path.text)
      (Assembler.writeSymbols · program) fun p =>
    let p := p.tell K s.verbose ("Assembly complete: " ++ words)
    let p := p.tell K s.verbose ("Defined " ++ toString program.symbols.size ++ " symbols")
    let p := p.tell K s.verbose program.symbolListing
    p.finish ⟨0, ""⟩

/-- The effect of arguments, with the value of the environment variable for include paths. -/
def run (fs : FileSystem) (environment : Option String) (args : List String) : Outcome :=
  match K.read parseDefines fs environment args with
  | .ok settings => execute K fs settings
  | .error ending => ⟨ending, fs⟩

end NibbleAsm.CommandLine
