import NibbleAsm.CommandLine.Toolkit

/-!
# Reports of the command line

A command ends with an exit code and, unless it succeeds, a report on standard error. A
faulty source is reported as a block that names the file and the line.

## Main definitions

* `Diagnostic.block`: the block of a diagnostic
* `Trouble`: what can stop a command
* `Trouble.report`: the exit code and the report
-/

namespace NibbleAsm

open CommandLine (Toolkit)

/-- The line above and below an error block. -/
def blockDelimiter : String := "****"

/-- The block of a diagnostic: file and line if they are known, description, hint. -/
def Diagnostic.block (d : Diagnostic) : String :=
  let place :=
    match d.location with
    | some location => ["FILE: " ++ location.file, "LINE # " ++ Text.decimal location.line]
    | none => []
  Text.join "\n"
    (["", blockDelimiter] ++ place ++ [d.message] ++ d.hintLines ++ [blockDelimiter, ""])

/-- What can stop a command. -/
inductive Trouble where
  | assembly (diagnostic : Diagnostic)
  | toolchain (message : String)
  | badArgument (message : String)
  | fileNotFound (message : String)
  | permissionDenied (message : String)
  | internal (message : String)
  deriving DecidableEq, Repr

/-- The trouble that a failure makes. -/
def Failure.trouble : Failure → Trouble
  | error d => .assembly d
  | fault (.file e) => if e.kind = .noEntry then .fileNotFound e.message else .internal e.message
  | f => .internal f.text

/-- The end of a command: its exit code and its report. -/
structure Report where
  exitCode : Nat
  text : String
  deriving DecidableEq, Repr

/-- The report of a trouble. `kind` names the kind of command, if it is known. A verbose report of
an internal error tells how it came to it. -/
def Trouble.report (K : Toolkit) (kind : Option String) (verbose : Bool) : Trouble → Report
  | assembly d => ⟨1, K.echo .stderr d.block⟩
  | toolchain message =>
    match kind with
    | none | some "" => ⟨1, K.echo .stderr ("Error: " ++ message)⟩
    | some kind => ⟨1, K.echo .stderr (kind ++ " error: " ++ message)⟩
  | badArgument message | fileNotFound message | permissionDenied message =>
    ⟨2, K.echo .stderr ("Error: " ++ message)⟩
  | internal message =>
    ⟨3, K.echo .stderr ("Internal error: " ++ message) ++
      if verbose then K.traceback message else ""⟩

end NibbleAsm
