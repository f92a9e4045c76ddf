import NibbleAsm.Bindings
import NibbleAsm.Diagnostic
import NibbleAsm.Text.ControlSequence

/-!
# What a command is built with

A command does not read its arguments by itself, nor does it know how a text gets to a terminal.
Both are left to a toolkit, which is a parameter of the command. What the command asks for is
settings, and what it offers is a way to turn definitions into symbols; a toolkit that has no
settings ends the command at once. Of printing it is known what toolkits document: control
sequences of terminals are left out where there is no terminal.

## Main definitions

* `Settings`: what the command is to do
* `Ending`: what a command prints and ends with
* `Toolkit`: a reader of arguments and a printer
* `Toolkit.shown`: a text as a stream shows it
* `Toolkit.IsDocumented`: the rules of printing
-/

namespace NibbleAsm.CommandLine

/-- The streams that a command prints to. -/
inductive Stream where
  | stdout
  | stderr
  deriving DecidableEq, Repr

/-- What the command is to do. -/
structure Settings where
  input : FilePath
  output : Option FilePath
  listing : Option FilePath
  symbols : Option FilePath
  directories : List FilePath
  defines : Bindings Int
  verbose : Bool
  deriving Repr

/-- What a command prints and its exit code. A failure that the command does not expect is kept
apart. -/
structure Ending where
  exitCode : Nat
  stdout : String
  stderr : String
  uncaught : Option Failure
  deriving Repr

/-- Why definitions among the arguments are not taken: one of them is wrong, or there is a failure
that the reader of the arguments does not expect. -/
inductive Refusal where
  | badParameter (message : String)
  | uncaught (failure : Failure)
  deriving Repr

/-- The parts of a command that are not its own. -/
structure Toolkit where
  /-- The settings that arguments ask for, or how the command ends at once. It is given the way
  from definitions to symbols, the files, on which paths are checked, the value of the environment
  variable for include paths, and the arguments. -/
  read : (List String → Except Refusal (Bindings Int)) → FileSystem → Option String →
    List String → Except Ending Settings
  /-- Whether a stream is that of a terminal. -/
  isTerminal : Stream → Bool
  /-- A text without the control sequences of terminals. -/
  unstyle : String → String
  /-- What is written to a stream when a text is printed. -/
  echo : Stream → String → String
  /-- What is printed of the way to an internal error with a description. -/
  traceback : String → String

namespace Toolkit

variable (K : Toolkit)

/-- A text as a stream shows it. -/
def shown (stream : Stream) (text : String) : String :=
  if K.isTerminal stream then text else K.unstyle text

/-- The rules of printing that toolkits document: a text is printed as its stream shows it, with an
end of line behind it, and a text without escape characters has no control sequences. -/
structure IsDocumented : Prop where
  echo_eq : ∀ stream text, K.echo stream text = K.shown stream text ++ "\n"
  unstyle_eq : ∀ text, Text.controlStart ∉ text.toList → K.unstyle text = text

end Toolkit

end NibbleAsm.CommandLine
