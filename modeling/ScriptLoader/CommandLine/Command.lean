import ScriptLoader.CommandLine.Flags
import ScriptLoader.CommandLine.Suggestion

/-!
The commands, their flags and how many arguments they take. `Call.parse` reads the arguments of the program.
-/

set_option autoImplicit false
namespace ScriptLoader.CommandLine

inductive Command where
  | compile
  | check
  | resolve
  | config
  | serve
  | version
  deriving DecidableEq, Repr

inductive Arity where
  | any
  | none
  | exactly (count : Nat)
  | atMost (count : Nat)
  deriving DecidableEq, Repr

namespace Command

def programName : String := "tsload"

def name : Command → String
  | .compile => "compile"
  | .check => "check"
  | .resolve => "resolve"
  | .config => "config"
  | .serve => "serve"
  | .version => "version"

def all : List Command := [.compile, .check, .resolve, .config, .serve, .version]

def path (command : Command) : String := programName ++ " " ++ command.name

def arity : Command → Arity
  | .compile => .exactly 1
  | .check => .any
  | .resolve => .exactly 2
  | .config => .atMost 1
  | .serve => .none
  | .version => .none

def ownFlags : Command → List Flag
  | .compile => [⟨"format", none, .text⟩, ⟨"output", some 'o', .text⟩, ⟨"show-format", none, .switch⟩]
  | .check => [⟨"ui", none, .text⟩, ⟨"jobs", some 'j', .number⟩]
  | .serve => [⟨"addr", none, .text⟩, ⟨"root", none, .text⟩]
  | .version => [⟨"format", none, .text⟩]
  | _ => []

def sharedFlags : List Flag :=
  [⟨"color", none, .text⟩, ⟨"verbose", none, .switch⟩, ⟨"timings", none, .switch⟩, ⟨"check", none, .switch⟩,
    ⟨"defaults", none, .text⟩, ⟨"cpu-profile", none, .text⟩, ⟨"mem-profile", none, .text⟩,
    ⟨"runtime-trace", none, .text⟩]

def helpFlag : Flag := ⟨"help", some 'h', .switch⟩

def versionFlag : Flag := ⟨"version", some 'v', .switch⟩

def flags (command : Command) : List Flag := helpFlag :: command.ownFlags ++ sharedFlags

def guideFlags : List Flag := helpFlag :: sharedFlags

def shells : List String := ["bash", "fish", "powershell", "zsh"]

def suggestions (written : String) : List String :=
  ((all.map name) ++ ["completion"]).filter (resembles written)

end Command

inductive UsageError where
  | unknownCommand (word : String)
  | flag (e : FlagError)
  | unexpectedWord (path word : String)
  | wrongCount (expected received : Nat)
  | tooMany (limit received : Nat)
  deriving DecidableEq, Repr

def UsageError.message : UsageError → String
  | .unknownCommand word =>
    "unknown command " ++ Text.quoted word ++ " for " ++ Text.quoted Command.programName ++
      (if (Command.suggestions word).isEmpty then ""
      else "\n\nDid you mean this?\n" ++ String.join ((Command.suggestions word).map fun name => "\t" ++ name ++ "\n"))
  | .flag e => e.message
  | .unexpectedWord path word => "unknown command " ++ Text.quoted word ++ " for " ++ Text.quoted path
  | .wrongCount expected received =>
    "accepts " ++ toString expected ++ " arg(s), received " ++ toString received
  | .tooMany limit received => "accepts at most " ++ toString limit ++ " arg(s), received " ++ toString received

inductive Call where
  | help
  | showVersion
  | run (command : Command) (arguments : Arguments)
  deriving DecidableEq, Repr

namespace Call

/-- Whether an argument is a flag that takes the next argument as its value, as far as it can be told before
the command is known. -/
def takesNext (argument : String) : Bool :=
  let isBare (flag : Option Flag) : Bool := (flag.bind Flag.bareValue?).isSome
  Text.startsWith argument "-" && !argument.toList.contains '=' &&
    if Text.startsWith argument "--" then
      !isBare (Flag.named? Command.sharedFlags (String.ofList (argument.toList.drop 2)))
    else Text.Utf8.size argument = 2

/-- The first word that is neither a flag nor the value of one. A flag at the end takes the last argument with it. -/
def firstWord? : List String → Option String
  | [] => none
  | argument :: rest =>
    if argument = "--" then none
    else if takesNext argument then
      match rest with
      | _ :: next :: more => firstWord? (next :: more)
      | _ => none
    else if argument ≠ "" ∧ !Text.startsWith argument "-" then some argument
    else firstWord? rest

def dropWord (word : String) : List String → List String
  | [] => []
  | argument :: rest =>
    if argument = "--" then argument :: rest
    else if takesNext argument then
      match rest with
      | value :: more => argument :: value :: dropWord word more
      | [] => [argument]
    else if argument = word then rest
    else argument :: dropWord word rest

def refuseWords (path : String) : List String → Except UsageError Unit
  | [] => .ok ()
  | word :: _ => .error (.unexpectedWord path word)

def checkArity (command : Command) (words : List String) : Except UsageError Unit :=
  match command.arity with
  | .any => .ok ()
  | .none => refuseWords command.path words
  | .exactly count => if words.length = count then .ok () else .error (.wrongCount count words.length)
  | .atMost limit => if words.length ≤ limit then .ok () else .error (.tooMany limit words.length)

/-- A call of a command. Asking for help counts more than a wrong number of arguments. -/
def ofCommand (command : Command) (arguments : List String) : Except UsageError Call :=
  match Arguments.parse command.flags arguments with
  | .error e => .error (.flag e)
  | .ok parsed =>
    if parsed.isOn "help" then .ok .help
    else (checkArity command parsed.words).map fun _ => .run command parsed

def ofProgram (arguments : List String) : Except UsageError Call :=
  match Arguments.parse (Command.helpFlag :: Command.versionFlag :: Command.sharedFlags) arguments with
  | .error e => .error (.flag e)
  | .ok parsed => .ok (if !parsed.isOn "help" && parsed.isOn "version" then .showVersion else .help)

def ofGuide (arguments : List String) : Except UsageError Call :=
  match Arguments.parse Command.guideFlags arguments with
  | .error e => .error (.flag e)
  | .ok _ => .ok .help

def ofShell (shell : String) (arguments : List String) : Except UsageError Call :=
  match Arguments.parse (⟨"no-descriptions", none, .switch⟩ :: Command.guideFlags) arguments with
  | .error e => .error (.flag e)
  | .ok parsed =>
    if parsed.isOn "help" then .ok .help
    else (refuseWords (Command.programName ++ " completion " ++ shell) parsed.words).map fun _ => .help

def parse (arguments : List String) : Except UsageError Call :=
  match firstWord? arguments with
  | none => ofProgram arguments
  | some word =>
    let rest := dropWord word arguments
    match Command.all.find? (·.name = word) with
    | some command => ofCommand command rest
    | none =>
      if word = "help" then ofGuide rest
      else if word = "completion" then
        match (firstWord? rest).filter Command.shells.contains with
        | some shell => ofShell shell (dropWord shell rest)
        | none => ofGuide rest
      else .error (.unknownCommand word)

end Call
end ScriptLoader.CommandLine
