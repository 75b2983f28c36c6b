import Scriptlet.Limits
import Scriptlet.Text.Integer
import Scriptlet.Text.Quoted

/-!
# The command line

`CommandLine.read` reads the arguments of the program: at most one file, and options before and
after it. A long option can be cut short as long as it stays clear which is meant, and its value
can follow an equals sign. After two dashes there are no more options.
-/

namespace Scriptlet.CommandLine

/-- What the user asked for. -/
structure Settings where
  file : Option String := none
  /-- Whether the statements of a source are listed before they are run. -/
  showTrees : Bool := false
  /-- The depth to which a program may nest. -/
  depth : Int := Limits.usualDepth
  deriving DecidableEq, Repr

/-- What to do. -/
inductive Request where
  | help
  | run (settings : Settings)
  deriving DecidableEq, Repr

/-- The options of the program. -/
inductive Switch where
  | help
  | showTrees
  | depth
  deriving DecidableEq, Repr

/-- What can be wrong with the arguments. -/
inductive UsageError where
  | unrecognized (arguments : List String)
  | missingValue (switch : Switch)
  | invalidInteger (switch : Switch) (value : String)
  | unwantedValue (switch : Switch) (value : String)
  | ambiguous (argument : String) (spellings : List String)
  deriving DecidableEq, Repr

/-- The name of an option in messages. -/
def Switch.label : Switch → String
  | help => "-h/--help"
  | showTrees => "--ast"
  | depth => "--recursion-limit"

/-- The spellings of the options. -/
def spellings : List (String × Switch) :=
  [("-h", .help), ("--help", .help), ("--ast", .showTrees), ("--recursion-limit", .depth)]

/-- The message of a usage error. -/
def UsageError.message : UsageError → String
  | unrecognized arguments => "unrecognized arguments: " ++ " ".intercalate arguments
  | missingValue switch => "argument " ++ switch.label ++ ": expected one argument"
  | invalidInteger switch value =>
    "argument " ++ switch.label ++ ": invalid int value: " ++ Text.quoted value
  | unwantedValue switch value =>
    "argument " ++ switch.label ++ ": ignored explicit argument " ++ Text.quoted value
  | ambiguous argument spellings =>
    "ambiguous option: " ++ argument ++ " could match " ++ ", ".intercalate spellings

/-- What an argument is, before its place is looked at. -/
inductive Argument where
  /-- A file, or the value of an option. -/
  | plain
  /-- An option and the value that is attached to it. -/
  | switch (switch : Switch) (value : Option String)
  /-- The short call for help and the letters that are attached to it. -/
  | helpLetters (letters : String)
  /-- Something that looks like an option and is none. -/
  | unknown
  | ambiguous (spellings : List String)
  deriving DecidableEq, Repr

/-- Whether a text looks like a negative number. -/
def isNegativeNumber (text : List Char) : Bool :=
  let isDigit character := (Text.digit? character).isSome
  match text with
  | '-' :: rest =>
    let rest := if rest.getLast? = some '\n' then rest.dropLast else rest
    match rest.dropWhile isDigit with
    | [] => !rest.isEmpty
    | '.' :: fraction => !fraction.isEmpty && fraction.all isDigit
    | _ => false
  | _ => false

/-- A text before and after its first equals sign. -/
def splitValue (text : List Char) : List Char × Option String :=
  match text.dropWhile (· ≠ '=') with
  | [] => (text, none)
  | _ :: value => (text.takeWhile (· ≠ '='), some (String.ofList value))

/-- The long options that a name can be short for. -/
def candidates (name : List Char) : List (String × Switch) :=
  spellings.filter fun (spelling, _) => name.isPrefixOf spelling.toList

/-- What an argument is that begins with two dashes and is not just those. -/
def classifyLong (text : List Char) : Argument :=
  let (name, value) := splitValue text
  match spellings.lookup (String.ofList name), candidates name with
  | some switch, _ => .switch switch value
  | none, [(_, switch)] => .switch switch value
  | none, [] => if text.contains ' ' then .plain else .unknown
  | none, several => .ambiguous (several.map Prod.fst)

/-- What an argument is that begins with one dash. -/
def classifyShort : List Char → Argument
  | ['-'] => .plain
  | ['-', 'h'] => .switch .help none
  | '-' :: 'h' :: '=' :: letters => .helpLetters (String.ofList letters)
  | '-' :: 'h' :: letters => .helpLetters (String.ofList letters)
  | text => if isNegativeNumber text || text.contains ' ' then .plain else .unknown

/-- What an argument is, when it stands before two dashes. -/
def classify (argument : String) : Argument :=
  match argument.toList with
  | '-' :: '-' :: rest => classifyLong ('-' :: '-' :: rest)
  | '-' :: rest => classifyShort ('-' :: rest)
  | _ => .plain

/-- How far the arguments have been read. -/
structure Progress where
  settings : Settings := {}
  /-- Whether the last argument was taken as the file. -/
  justFile : Bool := false
  /-- The arguments that nothing could be made of. -/
  extras : List String := []

namespace Progress

/-- Takes an argument as the file, if there is none yet. -/
def plain (progress : Progress) (argument : String) : Progress :=
  match progress.settings.file with
  | none =>
    { progress with
      settings := { progress.settings with file := some argument }
      justFile := true }
  | some _ => { progress with justFile := false, extras := progress.extras ++ [argument] }

/-- Takes the arguments from two dashes on. -/
def afterDashes (progress : Progress) (rest : List String) : Progress :=
  if progress.settings.file.isNone then
    match rest with
    | [] => progress
    | file :: extras => { progress.plain file with extras := progress.extras ++ extras }
  else if progress.justFile then { progress with extras := progress.extras ++ rest }
  else { progress with extras := progress.extras ++ "--" :: rest }

/-- Takes the value of the depth. -/
def withDepth (progress : Progress) (value : String) : Except UsageError Progress :=
  match Text.integer? value with
  | some depth =>
    .ok { progress with settings := { progress.settings with depth := depth }, justFile := false }
  | none => .error (.invalidInteger .depth value)

/-- What is asked for when all arguments have been read. -/
def finish (progress : Progress) : Except UsageError Request :=
  if progress.extras.isEmpty then .ok (.run progress.settings)
  else .error (.unrecognized progress.extras)

end Progress

/-- A call for help with letters attached to it, which may only repeat the call. -/
def helpWith (letters : String) : Except UsageError Request :=
  let rest := letters.toList.dropWhile (· = 'h')
  if letters ≠ "" ∧ rest.isEmpty then .ok .help
  else .error (.unwantedValue .help (String.ofList rest))

/-- Reads arguments from left to right. -/
def readFrom (progress : Progress) : List String → Except UsageError Request
  | [] => progress.finish
  | argument :: rest =>
    if argument = "--" then (progress.afterDashes rest).finish
    else
      match classify argument with
      | .plain => readFrom (progress.plain argument) rest
      | .unknown | .ambiguous _ =>
        readFrom { progress with justFile := false, extras := progress.extras ++ [argument] } rest
      | .switch .help none => .ok .help
      | .switch .help (some value) => .error (.unwantedValue .help value)
      | .helpLetters letters => helpWith letters
      | .switch .showTrees none =>
        readFrom
          { progress with
            settings := { progress.settings with showTrees := true }
            justFile := false }
          rest
      | .switch .showTrees (some value) => .error (.unwantedValue .showTrees value)
      | .switch .depth (some value) => do readFrom (← progress.withDepth value) rest
      | .switch .depth none =>
        match rest with
        | [] => .error (.missingValue .depth)
        | value :: rest =>
          if value ≠ "--" ∧ classify value = .plain then do
            readFrom (← progress.withDepth value) rest
          else .error (.missingValue .depth)

/-- The first argument that could be several options. -/
def ambiguity? (arguments : List String) : Option UsageError :=
  (arguments.takeWhile (· ≠ "--")).findSome? fun argument =>
    match classify argument with
    | .ambiguous spellings => some (.ambiguous argument spellings)
    | _ => none

/-- Reads the arguments of the program. -/
def read (arguments : List String) : Except UsageError Request :=
  match ambiguity? arguments with
  | some error => .error error
  | none => readFrom {} arguments

/-- How to call the program. -/
def usage : String :=
  "usage: yai [-h] [--ast] [--recursion-limit RECURSION_LIMIT] [file]\n"

/-- What is said about a usage error. -/
def UsageError.text (error : UsageError) : String :=
  usage ++ "yai: error: " ++ error.message ++ "\n"

/-- What is said when help is asked for. -/
def helpText : String :=
  usage ++
    "\nyet another interpreter\n" ++
    "\npositional arguments:\n" ++
    "  file                  file to interpret and run (if empty, goes to command-\n" ++
    "                        line mode)\n" ++
    "\noptions:\n" ++
    "  -h, --help            show this help message and exit\n" ++
    "  --ast                 print each parsed statement before running it\n" ++
    "  --recursion-limit RECURSION_LIMIT\n" ++
    "                        maximum nesting depth of calls and expressions\n" ++
    "                        (default: 10000)\n"

end Scriptlet.CommandLine
