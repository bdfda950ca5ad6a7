import Chord.Engine.Mode

/-!
# Arguments

The words after the name of the program.

**Input.** A list of words.

**Algorithm.** The words are taken from left to right. A word is an option if it starts with a dash,
unless it is a single dash or comes after a double dash. The first other word names the command;
from there on the options of that command count, and the other words are its operands. The
settings file and the verbosity may be given on both sides of the command.

**Results.** `Arguments.parse` gives an `Invocation`, or nothing if the words make no sense.
-/

namespace Chord

/-- The commands with their operands and options. -/
inductive Task where
  | check (script : Option String) (tree pretty : Bool)
  | run (script : String) (mode : Option Mode) (triggers : List String) (echo : Bool)
  | eval (source : String) (mode : Option Mode)
  | compile (input output : String)
  | overview
  | explain (topic : String)
deriving DecidableEq, Repr

/-- What the program is asked for. -/
inductive Invocation where
  /-- A task, with a settings file and how often more notes were asked for. -/
  | task (config : Option String) (verbosity : Nat) (task : Task)
  | help
  | version
deriving DecidableEq, Repr

namespace Arguments

/-- The options. -/
inductive Flag where
  | config
  | verbose
  | help
  | version
  | tree
  | pretty
  | mode
  | trigger
  | echo
deriving DecidableEq, Repr

namespace Flag

/-- All options. -/
def all : List Flag :=
  [.config, .verbose, .help, .version, .tree, .pretty, .mode, .trigger, .echo]

/-- The name of an option after two dashes. -/
def long : Flag → String
  | .config => "config"
  | .verbose => "verbose"
  | .help => "help"
  | .version => "version"
  | .tree => "ast"
  | .pretty => "pretty"
  | .mode => "mode"
  | .trigger => "trigger"
  | .echo => "echo"

/-- The letter of an option after one dash. -/
def short? : Flag → Option Char
  | .config => some 'c'
  | .verbose => some 'v'
  | .help => some 'h'
  | .version => some 'V'
  | .tree => none
  | .pretty => some 'p'
  | .mode => some 'm'
  | .trigger => some 't'
  | .echo => none

/-- Whether a value follows. -/
def takesValue : Flag → Bool
  | .config => true
  | .mode => true
  | .trigger => true
  | _ => false

/-- Whether an option may be repeated. -/
def isRepeatable : Flag → Bool
  | .verbose => true
  | .trigger => true
  | _ => false

end Flag

/-- The names of the commands. -/
inductive Verb where
  | check
  | run
  | eval
  | compile
  | docs
  | doc
deriving DecidableEq, Repr

namespace Verb

/-- The command with a name. -/
def ofName? : String → Option Verb
  | "check" => some .check
  | "run" => some .run
  | "eval" => some .eval
  | "compile" => some .compile
  | "docs" => some .docs
  | "doc" => some .doc
  | _ => none

/-- The options that a command knows; before the command only some have a meaning. -/
def flags : Option Verb → List Flag
  | none => [.config, .verbose, .help, .version]
  | some .check => [.config, .verbose, .help, .tree, .pretty]
  | some .run => [.config, .verbose, .help, .mode, .trigger, .echo]
  | some .eval => [.config, .verbose, .help, .mode]
  | some .compile => [.config, .verbose, .help]
  | some .docs => [.config, .verbose, .help]
  | some .doc => [.config, .verbose, .help]

/-- How many operands a command takes at most. -/
def maxOperands : Verb → Nat
  | .check => 1
  | .run => 1
  | .eval => 1
  | .compile => 2
  | .docs => 0
  | .doc => 1

/-- Whether an operand may be empty: a path must not. -/
def acceptsEmpty : Verb → Bool
  | .eval => true
  | .doc => true
  | _ => false

end Verb

/-- What has been read on one side of the command. -/
structure Side where
  /-- The options given, with their values. -/
  options : List (Flag × String) := []
  operands : List String := []
deriving Repr

namespace Side

/-- The value of an option. -/
def value? (s : Side) (flag : Flag) : Option String :=
  s.options.lookup flag

/-- Whether an option was given. -/
def has (s : Side) (flag : Flag) : Bool :=
  (s.value? flag).isSome

/-- The values of an option. -/
def values (s : Side) (flag : Flag) : List String :=
  (s.options.filter (·.1 == flag)).map Prod.snd

/-- Adds an option. A path must not be empty, a mode must exist, and most options come once. -/
def add? (s : Side) (flag : Flag) (value : String) : Option Side :=
  if s.has flag && !flag.isRepeatable then none
  else if flag == .config && value.isEmpty then none
  else if flag == .mode && (Mode.ofName? value).isNone then none
  else some { s with options := s.options ++ [(flag, value)] }

/-- Adds an operand of a command. -/
def operand? (s : Side) (verb : Verb) (word : String) : Option Side :=
  if s.operands.length < verb.maxOperands && (verb.acceptsEmpty || !word.isEmpty) then
    some { s with operands := s.operands ++ [word] }
  else none

end Side

/-- What a word with options leads to. -/
inductive Step where
  | go (side : Side)
  /-- The next word is the value of an option. -/
  | wait (flag : Flag) (side : Side)
  /-- The program only has to print something. -/
  | answer (invocation : Invocation)

/-- Takes an option that has no value. -/
def takeFlag (flag : Flag) (side : Side) : Option Step :=
  match flag with
  | .help => some (.answer .help)
  | .version => some (.answer .version)
  | _ => (side.add? flag "").map .go

/-- Takes the letters after one dash. The letters after an option with a value are its value, and
an equals sign may stand between. -/
def takeLetters (known : List Flag) : List Char → Side → Option Step
  | [], side => some (.go side)
  | c :: cs, side => do
      let flag ← known.find? fun flag => flag.short? == some c
      if flag.takesValue then
        match cs with
        | [] => some (.wait flag side)
        | '=' :: value => (side.add? flag (String.ofList value)).map .go
        | value => (side.add? flag (String.ofList value)).map .go
      else
        match ← takeFlag flag side with
        | .go side => takeLetters known cs side
        | step => some step

/-- Takes what follows two dashes: a name, and perhaps an equals sign and a value. -/
def takeName (known : List Flag) (cs : List Char) (side : Side) : Option Step := do
  let name := String.ofList (cs.takeWhile (· != '='))
  let flag ← known.find? fun flag => flag.long == name
  match cs.dropWhile (· != '=') with
  | [] => if flag.takesValue then some (.wait flag side) else takeFlag flag side
  | _ :: value =>
      if flag.takesValue then (side.add? flag (String.ofList value)).map .go else none

/-- Takes a word that starts with a dash. -/
def takeOption (verb : Option Verb) (word : String) (side : Side) : Option Step :=
  match word.toList with
  | '-' :: '-' :: cs => takeName (Verb.flags verb) cs side
  | '-' :: cs => takeLetters (Verb.flags verb) cs side
  | _ => none

/-- Words that are options. -/
def isOption (word : String) : Bool :=
  word.startsWith "-" && word != "-"

/-- Takes words that all are operands. -/
def takeOperands (verb : Verb) : List String → Side → Option Side
  | [], side => some side
  | word :: words, side => do
      let side ← side.operand? verb word
      takeOperands verb words side

/-- The task of a command with what was given after it. -/
def taskOf (verb : Verb) (side : Side) : Option Task :=
  let mode := (side.value? .mode).bind Mode.ofName?
  match verb, side.operands with
  | .check, [] => some (.check none (side.has .tree) (side.has .pretty))
  | .check, [script] => some (.check (some script) (side.has .tree) (side.has .pretty))
  | .run, [script] => some (.run script mode (side.values .trigger) (side.has .echo))
  | .eval, [source] => some (.eval source mode)
  | .compile, [input, output] => some (.compile input output)
  | .docs, [] => some .overview
  | .doc, [topic] => some (.explain topic)
  | _, _ => none

/-- Puts both sides of a command together. Where something is given on both, the side after the
command wins. -/
def conclude (front : Side) (verb : Verb) (side : Side) : Option Invocation :=
  let verbosity := (if side.has .verbose then side else front).values .verbose
  (taskOf verb side).map
    (.task ((side.value? .config).or (front.value? .config)) verbosity.length)

/-- Takes the words after a command; `waiting` is an option whose value comes next. -/
def afterVerb (front : Side) (verb : Verb) (waiting : Option Flag) :
    List String → Side → Option Invocation
  | [], side => if waiting.isSome then none else conclude front verb side
  | word :: words, side =>
      match waiting with
      | some flag =>
          if isOption word then none
          else do
            let side ← side.add? flag word
            afterVerb front verb none words side
      | none =>
          if word == "--" then do
            let side ← takeOperands verb words side
            conclude front verb side
          else if isOption word then do
            match ← takeOption (some verb) word side with
            | .go side => afterVerb front verb none words side
            | .wait flag side => afterVerb front verb (some flag) words side
            | .answer invocation => some invocation
          else do
            let side ← side.operand? verb word
            afterVerb front verb none words side

/-- Whether the words after `help` name at most one command. -/
def namesOneVerb : List String → Bool
  | [] => true
  | [word] => word == "help" || (Verb.ofName? word).isSome
  | _ => false

/-- Takes the words up to the command; `waiting` is an option whose value comes next. -/
def beforeVerb (waiting : Option Flag) : List String → Side → Option Invocation
  | [], _ => none
  | word :: words, side =>
      match waiting with
      | some flag =>
          if isOption word then none
          else do
            let side ← side.add? flag word
            beforeVerb none words side
      | none =>
          if word == "--" then none
          else if isOption word then do
            match ← takeOption none word side with
            | .go side => beforeVerb none words side
            | .wait flag side => beforeVerb (some flag) words side
            | .answer invocation => some invocation
          else if word == "help" then if namesOneVerb words then some .help else none
          else do
            let verb ← Verb.ofName? word
            afterVerb side verb none words {}

/-- Reads the words after the name of the program. -/
def parse (words : List String) : Option Invocation :=
  beforeVerb none words {}

end Arguments

end Chord
