import NibbleAsm.CommandLine.Help

/-!
# The toolkit of the executable

Arguments are read by the options of the command. A faulty one ends the command with a report, and
the options for help and for the version end it with what they ask for.

## Main definitions

* `Stop.ending`: how a command without settings ends
* `Toolkit.standard`: the toolkit, on streams that are terminals or not
-/

namespace NibbleAsm.CommandLine

/-- How a command without settings ends; `echo` prints a text on standard error. -/
def Stop.ending (echo : String → String) : Stop → Ending
  | .usage e => ⟨2, "", e.report echo, none⟩
  | .uncaught f => ⟨1, "", "", some f⟩
  | .eager .help => ⟨0, help, "", none⟩
  | .eager _ => ⟨0, "vm16asm, version 1.0.0\n", "", none⟩

namespace Toolkit

/-- Prints a text on a stream, without control sequences if it is not a terminal. -/
def standardEcho (isTerminal : Stream → Bool) (stream : Stream) (text : String) : String :=
  (if isTerminal stream then text else Text.withoutControls text) ++ "\n"

/-- The toolkit of the executable, which keeps no track of the way to an internal error. -/
def standard (isTerminal : Stream → Bool) : Toolkit where
  read parseDefines fs environment args :=
    (Settings.ofArguments parseDefines fs environment args).mapError
      (Stop.ending (standardEcho isTerminal .stderr))
  isTerminal := isTerminal
  unstyle := Text.withoutControls
  echo := standardEcho isTerminal
  traceback _ := ""

end Toolkit

end NibbleAsm.CommandLine
