import BlockShuffle.Layout

/-!
# Command lines

Two commands check shuffle files: `inspect` one index file, `verify` a whole shuffle. Arguments are
read from left to right and the first thing that decides wins: an argument that makes no sense is a
usage error even if help is asked for behind it, and help is given even if something required is
missing. An option's value may be the next argument or be attached, with `=` or, for a letter,
without; an argument that starts with a dash is not taken for a value.

The parser is written out because the command line is part of what the commands are: which texts are
refused, what help says, and which of two faults is seen first. It covers the grammar these two
commands have and no more. Texts of usage errors go to another stream and are not modelled; that
there was one is the exit code. Environment variables, shells and the encoding of arguments are left
out, an argument is a text, and only a NUL in one of them is treated, in `Cli/Check`.

Nothing is proved of the parser itself. The theorems on the commands take the options as given, and
are about every value that options can have, so a command line enters them only through the settings
it stands for.
-/

set_option autoImplicit false

namespace BlockShuffle.Cli

/-! ## Commands -/

/-- What to verify. -/
structure VerifyOptions where
  base : Path
  app : String
  shuffle : UInt32
  partitions : UInt32
  perRange : UInt32
deriving DecidableEq, Repr

/-- What a command line asks for. -/
inductive Command where
  | inspect (index : Path)
  | verify (options : VerifyOptions)
  /-- Text to show, and nothing else to do. -/
  | show (lines : List String)
  /-- A command line that makes no sense. -/
  | usageError
deriving DecidableEq, Repr

/-! ## Texts -/

def versionLines : List String := ["shufflestore-cli 0.1.0"]

def inspectAbout : String := "Dump the entries of an index file and check every block's CRC"

def verifyAbout : String := "Check every block of a shuffle, one thread per partition range"

def helpAbout : String := "Print this message or the help of the given subcommand(s)"

/-- The commands, as help lists them. -/
def commandLines : List String := [
  "Commands:",
  "  inspect  " ++ inspectAbout,
  "  verify   " ++ verifyAbout,
  "  help     " ++ helpAbout]

def mainHelp : List String :=
  ["Inspect and verify shufflestore data/index files",
    "",
    "Usage: shufflestore-cli <COMMAND>",
    ""] ++ commandLines ++ [
    "",
    "Options:",
    "  -h, --help     Print help",
    "  -V, --version  Print version"]

def inspectHelp : List String := [
  inspectAbout,
  "",
  "Usage: shufflestore-cli inspect <INDEX>",
  "",
  "Arguments:",
  "  <INDEX>  Path to a `\x7bshard\x7d_",
  "           .index` file",
  "",
  "Options:",
  "  -h, --help  Print help"]

def verifyHelp : List String := [
  verifyAbout,
  "",
  "Usage: shufflestore-cli verify [OPTIONS] --app <APP> --partitions <PARTITIONS>",
  "",
  "Options:",
  "  -b, --base <BASE>              Storage root [default: ./shuffle_data]",
  "  -a, --app <APP>                Application id",
  "  -s, --shuffle <SHUFFLE>        Shuffle id [default: 0]",
  "  -p, --partitions <PARTITIONS>  Total number of partitions",
  "  -r, --per-range <PER_RANGE>    Partitions grouped per directory [default: 1]",
  "  -h, --help                     Print help"]

def helpHelp : List String := [
  helpAbout,
  "",
  "Usage: shufflestore-cli help [COMMAND]...",
  "",
  "Arguments:",
  "  [COMMAND]...  Print help for the subcommand(s)"]

/-! ## Values -/

/-- A number of 32 bits: digits behind an optional sign, which may only be a minus in front of
zero. -/
def number? (text : String) : Option UInt32 :=
  match text.toList with
  | '-' :: digits =>
    match ShardFiles.number? digits with
    | some 0 => if digits.head? = some '+' then none else some 0
    | _ => none
  | chars => ShardFiles.number? chars

/-- A path that names something. -/
def path? (text : String) : Option Path :=
  if text.isEmpty then none else some (Path.ofText text)

/-! ## Arguments -/

/-- One argument, by its shape. -/
inductive Argument where
  /-- The mark behind which nothing is an option. -/
  | endOfOptions
  /-- Two dashes and a name, with the value attached by `=` if there is one. -/
  | long (name : String) (value : Option String)
  /-- A dash and a letter, with what is attached to it, if anything. -/
  | short (letter : Char) (value : Option String)
  | plain (text : String)
deriving DecidableEq, Repr

/-- Split a name from the value attached to it. -/
def splitValue (chars : List Char) : String × Option String :=
  let name := String.ofList (chars.takeWhile (· != '='))
  match chars.dropWhile (· != '=') with
  | [] => (name, none)
  | _ :: value => (name, some (String.ofList value))

/-- What is attached to a letter, without the `=` that may be between them. -/
def attached? : List Char → Option String
  | [] => none
  | '=' :: value => some (String.ofList value)
  | value => some (String.ofList value)

/-- The shape of an argument. A lone dash is a value. -/
def Argument.ofText (text : String) : Argument :=
  match text.toList with
  | ['-', '-'] => .endOfOptions
  | '-' :: '-' :: chars =>
    let (name, value) := splitValue chars
    .long name value
  | '-' :: letter :: rest => .short letter (attached? rest)
  | _ => .plain text

/-- Whether an argument asks for help. -/
def Argument.isHelp : Argument → Bool
  | .long name value => name == "help" && value.isNone
  | .short letter _ => letter == 'h'
  | _ => false

/-! ## `inspect` -/

/-- Read the arguments of `inspect`, once `index` was given or not. -/
def inspectArguments (index : Option Path) : List String → Command
  | [] =>
    match index with
    | some index => .inspect index
    | none => .usageError
  | text :: rest =>
    let argument := Argument.ofText text
    if argument.isHelp then .show inspectHelp
    else
      match argument, index with
      | .plain text, none =>
        match path? text with
        | some path => inspectArguments (some path) rest
        | none => .usageError
      | .endOfOptions, index =>
        match index, rest with
        | some index, [] => .inspect index
        | none, [text] =>
          match path? text with
          | some path => .inspect path
          | none => .usageError
        | _, _ => .usageError
      | _, _ => .usageError

/-! ## `verify` -/

/-- The options of `verify`. -/
inductive VerifyOption where
  | base
  | app
  | shuffle
  | partitions
  | perRange
deriving DecidableEq, Repr

/-- The option an argument names, with the value attached to it. -/
def VerifyOption.ofArgument? : Argument → Option (VerifyOption × Option String)
  | .long "base" value => some (.base, value)
  | .long "app" value => some (.app, value)
  | .long "shuffle" value => some (.shuffle, value)
  | .long "partitions" value => some (.partitions, value)
  | .long "per-range" value => some (.perRange, value)
  | .short 'b' value => some (.base, value)
  | .short 'a' value => some (.app, value)
  | .short 's' value => some (.shuffle, value)
  | .short 'p' value => some (.partitions, value)
  | .short 'r' value => some (.perRange, value)
  | _ => none

/-- The options given so far. -/
structure VerifyGiven where
  base : Option Path := none
  app : Option String := none
  shuffle : Option UInt32 := none
  partitions : Option UInt32 := none
  perRange : Option UInt32 := none

namespace VerifyGiven

/-- Take a value for an option; an option given twice, or a value that is none, is refused. -/
def take (given : VerifyGiven) (option : VerifyOption) (text : String) : Option VerifyGiven :=
  match option with
  | .base =>
    if given.base.isSome then none
    else (path? text).map fun base => { given with base := some base }
  | .app => if given.app.isSome then none else some { given with app := some text }
  | .shuffle =>
    if given.shuffle.isSome then none
    else (number? text).map fun shuffle => { given with shuffle := some shuffle }
  | .partitions =>
    if given.partitions.isSome then none
    else (number? text).map fun partitions => { given with partitions := some partitions }
  | .perRange =>
    if given.perRange.isSome then none
    else (number? text).map fun perRange => { given with perRange := some perRange }

/-- The command, where everything required was given. -/
def finish (given : VerifyGiven) : Command :=
  match given.app, given.partitions with
  | some app, some partitions =>
    .verify {
      base := given.base.getD (Path.ofText "./shuffle_data")
      app
      shuffle := given.shuffle.getD 0
      partitions
      perRange := given.perRange.getD 1 }
  | _, _ => .usageError

end VerifyGiven

/-- Read the arguments of `verify`. -/
def verifyArguments (given : VerifyGiven) : List String → Command
  | [] => given.finish
  | text :: rest =>
    let argument := Argument.ofText text
    if argument.isHelp then .show verifyHelp
    else if argument = .endOfOptions then
      if rest.isEmpty then given.finish else .usageError
    else
      match VerifyOption.ofArgument? argument with
      | none => .usageError
      | some (option, some value) =>
        match given.take option value with
        | some given => verifyArguments given rest
        | none => .usageError
      | some (option, none) =>
        match rest with
        | [] => .usageError
        | next :: rest =>
          match Argument.ofText next with
          | .plain value =>
            match given.take option value with
            | some given => verifyArguments given rest
            | none => .usageError
          | _ => .usageError

/-! ## The command line -/

/-- The help that `help` gives about a command, or about everything. -/
def helpArguments : List String → Command
  | [] => .show mainHelp
  | ["inspect"] => .show inspectHelp
  | ["verify"] => .show verifyHelp
  | ["help"] => .show helpHelp
  | _ => .usageError

/-- What a command line asks for. -/
def Command.ofArguments : List String → Command
  | [] => .usageError
  | "inspect" :: rest => inspectArguments none rest
  | "verify" :: rest => verifyArguments {} rest
  | "help" :: rest => helpArguments rest
  | text :: _ =>
    match Argument.ofText text with
    | .long "help" none => .show mainHelp
    | .long "version" none => .show versionLines
    | .short 'h' _ => .show mainHelp
    | .short 'V' _ => .show versionLines
    | _ => .usageError

end BlockShuffle.Cli
