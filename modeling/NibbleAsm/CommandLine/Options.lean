import NibbleAsm.CommandLine.Matching
import NibbleAsm.CommandLine.Toolkit

/-!
# Command-line options

Options stand anywhere among the arguments, short ones may be joined, and two dashes end
them. The arguments are first divided into options and others; then the values are checked
one after the other, in the order in which they were given.

## Main definitions

* `Switch`: the options
* `Arguments.parse`: the options and the other arguments
* `UsageError`: what can be wrong with the arguments
* `Settings.ofArguments`: the settings that arguments ask for
-/

namespace NibbleAsm.CommandLine

/-- The options of the command. -/
inductive Switch where
  | output
  | listing
  | symbols
  | includePath
  | define
  | verbose
  | version
  | help
  deriving DecidableEq, Repr

namespace Switch

/-- All options, in the order in which they are checked if they are not given. -/
def all : List Switch :=
  [output, listing, symbols, includePath, define, verbose, version, help]

/-- The one-letter name of an option. -/
def letter? : Switch → Option Char
  | output => some 'o'
  | listing => some 'l'
  | symbols => some 's'
  | includePath => some 'I'
  | define => some 'D'
  | verbose => some 'v'
  | version | help => none

/-- The long name of an option. -/
def longName : Switch → String
  | output => "--output"
  | listing => "--listing"
  | symbols => "--symbols"
  | includePath => "--include"
  | define => "--define"
  | verbose => "--verbose"
  | version => "--version"
  | help => "--help"

/-- Whether an option takes a value. -/
def takesValue : Switch → Bool
  | output | listing | symbols | includePath | define => true
  | verbose | version | help => false

/-- Whether an option ends the command before anything else is checked. -/
def isEager : Switch → Bool
  | version | help => true
  | _ => false

/-- The names of an option in a message. -/
def names (s : Switch) : String :=
  match s.letter? with
  | some letter => "'-" ++ String.singleton letter ++ "' / '" ++ s.longName ++ "'"
  | none => "'" ++ s.longName ++ "'"

end Switch

/-- What can be wrong with the arguments. -/
inductive UsageError where
  | noSuchOption (name : String) (close : List String)
  | valueMissing (name : String)
  | valueRefused (name : String)
  | inputMissing
  | extraArguments (args : List String)
  | invalidValue (names message : String)
  deriving DecidableEq, Repr

namespace UsageError

/-- The description of an error. -/
def message : UsageError → String
  | noSuchOption name [] => "No such option: " ++ name
  | noSuchOption name [one] => "No such option: " ++ name ++ " Did you mean " ++ one ++ "?"
  | noSuchOption name close =>
    "No such option: " ++ name ++ " (Possible options: " ++ Text.join ", " close ++ ")"
  | valueMissing name => "Option " ++ Text.quote name ++ " requires an argument."
  | valueRefused name => "Option " ++ Text.quote name ++ " does not take a value."
  | inputMissing => "Missing argument 'INPUT_FILE'."
  | extraArguments [arg] => "Got unexpected extra argument (" ++ arg ++ ")"
  | extraArguments args => "Got unexpected extra arguments (" ++ Text.join " " args ++ ")"
  | invalidValue names message => "Invalid value for " ++ names ++ ": " ++ message

/-- Whether the usage of the command is shown before the description. -/
def showsUsage : UsageError → Bool
  | valueMissing _ | valueRefused _ => false
  | _ => true

end UsageError

/-- The usage of the command. -/
def usage : String :=
  "Usage: vm16asm [OPTIONS] INPUT_FILE\n"

/-- The report of an error; `echo` prints a text. -/
def UsageError.report (echo : String → String) (e : UsageError) : String :=
  (if e.showsUsage then usage ++ "Try 'vm16asm --help' for help.\n\n" else "") ++
    echo ("Error: " ++ e.message)

/-- The options, with their values, and the other arguments, both in the order given. -/
structure Arguments where
  options : List (Switch × String)
  others : List String
  deriving Repr

namespace Arguments

/-- Options of a group of letters: those without a value, then possibly one with a value and
what of the group is left for it. -/
structure Group where
  plain : List Switch
  valued : Option (Switch × Char × List Char)

/-- The options that a group of letters denotes. -/
def readGroup (plain : List Switch) : List Char → Except UsageError Group
  | [] => .ok ⟨plain.reverse, none⟩
  | c :: rest =>
    match Switch.all.find? (·.letter? = some c) with
    | none => .error (.noSuchOption (String.ofList ['-', c]) [])
    | some s =>
      if s.takesValue then .ok ⟨plain.reverse, some (s, c, rest)⟩
      else readGroup (s :: plain) rest

/-- What an argument that starts with a dash asks for. -/
inductive Asked where
  | complete (options : List (Switch × String))
  | needsValue (options : List (Switch × String)) (switch : Switch) (name : String)

/-- The options that an argument denotes. It is tried as a long name first, with a value
behind an equals sign, and then as a group of letters. -/
def readOption (arg : String) : Except UsageError Asked :=
  let (name, value?) := Text.cutAt '=' arg
  match Switch.all.find? (·.longName = name) with
  | some s =>
    if s.takesValue then
      match value? with
      | some value => .ok (.complete [(s, value)])
      | none => .ok (.needsValue [] s name)
    else if value?.isSome then .error (.valueRefused name)
    else .ok (.complete [(s, "")])
  | none =>
    match arg.toList with
    | '-' :: '-' :: _ =>
      .error (.noSuchOption name (closeMatches name (Switch.all.map Switch.longName)))
    | letters => do
      let group ← readGroup [] letters.tail
      let plain := group.plain.map fun s => (s, "")
      match group.valued with
      | none => .ok (.complete plain)
      | some (s, c, []) => .ok (.needsValue plain s (String.ofList ['-', c]))
      | some (s, _, value) => .ok (.complete (plain ++ [(s, String.ofList value)]))

/-- The arguments behind some others, which are in reverse order. -/
def parseFrom (options : List (Switch × String)) (others : List String) :
    List String → Except UsageError Arguments
  | [] => .ok ⟨options.reverse, others.reverse⟩
  | arg :: rest =>
    if arg = "--" then .ok ⟨options.reverse, others.reverse ++ rest⟩
    else if Text.startsWith '-' arg && arg.length > 1 then
      match readOption arg with
      | .error e => .error e
      | .ok (.complete more) => parseFrom (more.reverse ++ options) others rest
      | .ok (.needsValue more s name) =>
        match rest with
        | [] => .error (.valueMissing name)
        | value :: rest => parseFrom ((s, value) :: (more.reverse ++ options)) others rest
    else parseFrom options (arg :: others) rest

/-- The options and the other arguments. -/
def parse (args : List String) : Except UsageError Arguments :=
  parseFrom [] [] args

/-- The values given to an option, in order. -/
def valuesOf (a : Arguments) (s : Switch) : List String :=
  (a.options.filter (·.1 = s)).map Prod.snd

/-- The last value given to an option. -/
def lastOf (a : Arguments) (s : Switch) : Option String :=
  (a.valuesOf s).getLast?

end Arguments

/-- Why there are no settings: the arguments are wrong, a value stops the command, or an
eager option was given. -/
inductive Stop where
  | usage (error : UsageError)
  | uncaught (failure : Failure)
  | eager (switch : Switch)
  deriving Repr

/-- The entry that a value names, if there is one. A name that no access accepts stops the
command. -/
def namedEntry (fs : FileSystem) (value : String) : Except Stop (Option Entry) :=
  match fs.entry value with
  | .ok e => .ok (some e)
  | .error e => if e.kind = .embeddedNull then .error (.uncaught (.fault (.file e))) else .ok none

/-- A value that has to be the name of a file. Only an input file has to exist. -/
def checkFile (fs : FileSystem) (names : String) (mustExist : Bool) (value : String) :
    Except Stop FilePath := do
  let refuse (what : String) : Except Stop FilePath :=
    .error (.usage (.invalidValue names ("File " ++ Text.quote value ++ what)))
  match ← namedEntry fs value with
  | none => if mustExist then refuse " does not exist." else .ok (.ofString value)
  | some .directory => refuse " is a directory."
  | some (.file _) => .ok (.ofString value)

/-- A value that has to be the name of a directory. -/
def checkDirectory (fs : FileSystem) (value : String) : Except Stop FilePath := do
  let refuse (what : String) : Except Stop FilePath :=
    .error (.usage
      (.invalidValue Switch.includePath.names ("Directory " ++ Text.quote value ++ what)))
  match ← namedEntry fs value with
  | none => refuse " does not exist."
  | some (.file _) => refuse " is a file."
  | some .directory => .ok (.ofString value)

/-- What becomes of definitions that are not taken. -/
def Stop.ofRefusal : Refusal → Stop
  | .badParameter message => .usage (.invalidValue Switch.define.names message)
  | .uncaught f => .uncaught f

/-- What is checked: an option, or the input file. -/
inductive Parameter where
  | switch (switch : Switch)
  | input
  deriving DecidableEq, Repr

/-- The parameters in the order in which they are checked: the given options, the input
file, then the other options. -/
def checkOrder (a : Arguments) : List Parameter :=
  let given := (a.options.map fun o => o.1).eraseDups
  let rest := Switch.all.filter fun s => !given.contains s
  given.map .switch ++ [.input] ++ rest.map .switch

/-- The values of the include option: those given, or else the parts of the environment
variable between colons. -/
def includeValues (a : Arguments) (environment : Option String) : List String :=
  match a.valuesOf .includePath, environment with
  | [], none | [], some "" => []
  | [], some paths => (paths.toList.splitOn ':').map String.ofList
  | values, _ => values

variable (parseDefines : List String → Except Refusal (Bindings Int))

/-- The settings with one parameter checked. -/
def checkParameter (fs : FileSystem) (environment : Option String) (a : Arguments)
    (s : Settings) : Parameter → Except Stop Settings
  | .input =>
    match a.others with
    | [] => .error (.usage .inputMissing)
    | value :: _ => do
      .ok { s with input := ← checkFile fs "'INPUT_FILE'" true value }
  | .switch .output => do
    .ok { s with output := ← (a.lastOf .output).mapM (checkFile fs Switch.output.names false) }
  | .switch .listing => do
    .ok { s with listing := ← (a.lastOf .listing).mapM (checkFile fs Switch.listing.names false) }
  | .switch .symbols => do
    .ok { s with symbols := ← (a.lastOf .symbols).mapM (checkFile fs Switch.symbols.names false) }
  | .switch .includePath => do
    .ok { s with directories := ← (includeValues a environment).mapM (checkDirectory fs) }
  | .switch .define => do
    .ok { s with defines := ← (parseDefines (a.valuesOf .define)).mapError .ofRefusal }
  | .switch .verbose => .ok { s with verbose := (a.lastOf .verbose).isSome }
  | .switch .version | .switch .help => .ok s

/-- The settings that arguments ask for. -/
def Settings.ofArguments (fs : FileSystem) (environment : Option String) (args : List String) :
    Except Stop Settings := do
  let a ← (Arguments.parse args).mapError .usage
  match a.options.find? (·.1.isEager) with
  | some (s, _) => .error (.eager s)
  | none =>
    let settings ← (checkOrder a).foldlM (checkParameter parseDefines fs environment a)
      ⟨.ofString "", none, none, none, [], .empty, false⟩
    match a.others.tail with
    | [] => .ok settings
    | extra => .error (.usage (.extraArguments extra))

end NibbleAsm.CommandLine
