import NibbleAsm.CommandLine.Options

/-!
# The help text

The help text gives the usage of the command, what it does, some examples and a table of the
options. The left column of the table is built from the names of the options.

## Main definitions

* `Switch.summary`: what an option does, line by line
* `help`: the help text
-/

namespace NibbleAsm.CommandLine

namespace Switch

/-- The placeholder for the value of an option. -/
def placeholder? : Switch → Option String
  | output | listing | symbols => some "FILE"
  | includePath => some "DIRECTORY"
  | define => some "TEXT"
  | verbose | version | help => none

/-- What an option does, in lines that fit the right column of the table. -/
def summary : Switch → List String
  | output => ["Write the machine image (big-endian 16-bit words)"]
  | listing => ["Generate listing file"]
  | symbols => ["Generate symbol file"]
  | includePath => ["Add include search path (can be repeated, also read", "from VM16_INCLUDE)"]
  | define => ["Define symbol (format: NAME=VALUE, value in", "decimal, $hex or %binary)"]
  | verbose => ["Verbose output"]
  | version => ["Show the version and exit."]
  | help => ["Show this message and exit."]

/-- The names of an option and the placeholder for its value. -/
def heading (s : Switch) : String :=
  let short := s.letter?.elim "" fun c => String.ofList ['-', c] ++ ", "
  short ++ s.longName ++ s.placeholder?.elim "" (" " ++ ·)

end Switch

/-- The width of the left column of the table of options. -/
def headingWidth : Nat := (Switch.all.map (·.heading.length)).foldl max 0 + 2

/-- The lines of the table for an option. -/
def optionLines (s : Switch) : List String :=
  (s.heading :: List.replicate (s.summary.length - 1) "").zipWith
    (fun left right => "  " ++ Text.padRight headingWidth left ++ right) s.summary

/-- The help text. -/
def help : String :=
  let purpose :=
    ["", "  Assemble VM16 source code.", "",
      "  INPUT_FILE is the assembly source file (.asm) to assemble.", "",
      "  The listing and a hex dump of the machine words are printed to standard",
      "  output.", ""]
  let examples :=
    ["  Examples:",
      "      vm16asm hello.asm                # Listing and word dump only",
      "      vm16asm hello.asm -o hello.bin   # Also write the machine image",
      "      vm16asm -I inc/ hello.asm        # Add include path",
      "      vm16asm -D DEBUG=1 hello.asm     # Define symbol", ""]
  let lines := purpose ++ examples ++ "Options:" :: Switch.all.flatMap optionLines
  usage ++ Text.join "" (lines.map (· ++ "\n"))

end NibbleAsm.CommandLine
