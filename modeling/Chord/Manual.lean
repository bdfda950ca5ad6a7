import Chord.Text.Case

/-!
# The manual

The texts that explain scripts to their writers.

**Input.** The name of a topic.

**Results.** `Manual.overview` lists the topics, `Manual.Topic.ofName?` finds one by any of its
names and `Manual.Topic.text` explains it.
-/

namespace Chord
namespace Manual

/-- The topics of the manual. -/
inductive Topic where
  | statements
  | hotkeys
  | pipelines
  | modules
  | operators
  | types
  | modes
deriving DecidableEq, Repr

/-- The topic with a name, in any letter case. -/
def Topic.ofName? (name : String) : Option Topic :=
  match (Text.lowercase name).map fun c => if c == '-' then '_' else c with
  | "syntax" => some .statements
  | "statements" => some .statements
  | "hotkeys" => some .hotkeys
  | "hotkey" => some .hotkeys
  | "keys" => some .hotkeys
  | "pipelines" => some .pipelines
  | "pipeline" => some .pipelines
  | "pipes" => some .pipelines
  | "modules" => some .modules
  | "module" => some .modules
  | "stdlib" => some .modules
  | "functions" => some .modules
  | "operators" => some .operators
  | "ops" => some .operators
  | "types" => some .types
  | "type" => some .types
  | "values" => some .types
  | "modes" => some .modes
  | "mode" => some .modes
  | "jit" => some .modes
  | "aot" => some .modes
  | _ => none

/-- The list of topics. -/
def overview : String := "HOTKEY DOCUMENTATION

Hotkey scripts bind key combinations to actions. Actions are pipelines of
built-in operations on the clipboard, text, windows and keystrokes.

DOCUMENTATION CATEGORIES

  syntax            Statements: bindings, blocks, let, if, while, fn, return
  hotkeys           Writing key combinations and how they are normalized
  pipelines         Chaining stages with |
  modules           clipboard, text, window, system and send
  operators         Arithmetic, comparison and logical operators
  types             Values and conversions between them
  modes             Interpreter, JIT and ahead-of-time execution

QUICK REFERENCE

  F1 => send \"Hello\"                 Bind an action
  clipboard.out | text.upper | send  Pipeline
  text.replace \" \" \"_\"               Command call (arguments on the same line)
  window.focus(\"Editor\")             Parenthesized call
  let name = value                   Variable

Run 'hotkey doc <category>' for detailed documentation.
"

/-- How statements are written. -/
def statementsText : String := "SYNTAX - Statements

Statements are separated by newlines or ';'. Comments start with //.

HOTKEY BINDING
  <hotkey> => <statement>
    Runs the statement each time the combination is pressed.

    Example:
      F1 => send \"Hello World!\"
      Ctrl+V => \x7b
          let content = clipboard.out
          send content | text.sanitize
      \x7d

BLOCK
  \x7b statement; statement \x7d
    Evaluates to its last statement's value.

LET
  let name = expression
    Creates or overwrites a variable. Evaluates to the bound value.

IF / ELSE
  if condition \x7b ... \x7d else if other \x7b ... \x7d else \x7b ... \x7d
    'else' may start on the line after the closing brace.

WHILE
  while condition \x7b ... \x7d

FUNCTIONS
  fn name(a, b) \x7b return a + b \x7d
    Functions run in a copy of the caller's variables. Recursion depth is
    limited. Functions are only available in interpreter mode.

CALLS
  module.function(a, b)       Parenthesized arguments
  module.function a b         Command form: arguments on the same line
  send \"DEBUG: \" + content    Command arguments may contain operators
"

/-- How key combinations are written. -/
def hotkeysText : String := "HOTKEYS - Key Combinations

WORD MODIFIERS
  Ctrl+A  Alt+Tab  Shift+F3  Win+1
    Modifier words are case-insensitive. 'Control' and 'Super' are accepted.

SYMBOLIC PREFIXES
  ^a      Ctrl+A
  !Tab    Alt+Tab
  +a      Shift+A (only at the start of a statement)
  #1      Win+1

SINGLE KEYS
  F1 .. F24, or any key name directly followed by =>:
    Escape => window.prev

NORMALIZATION
  Modifiers are sorted as Ctrl, Alt, Shift, Win and key names are
  capitalized, so these all name the same binding:
    Ctrl+Shift+A   shift+ctrl+a   ^+a

  Binding a combination again replaces the earlier action.
"

/-- How stages are chained. -/
def pipelinesText : String := "PIPELINES - Chaining Stages

  stage0 | stage1 | stage2

  The first stage is evaluated normally. Every later stage receives the
  previous result as its first argument:

    \"hello world\" | text.upper | text.replace \" \" \"_\"
    => \"HELLO_WORLD\"

STAGE FORMS
  text.upper              Called with the running value
  text.replace \" \" \"_\"    Running value prepended to the arguments
  window.next             Functions without parameters ignore the value

  A '|' at the start of the next line continues the pipeline.
  Any other expression as a stage is an error.
"

/-- The built-in functions. -/
def modulesText : String := "MODULES - Built-in Functions

CLIPBOARD
  clipboard.get / clipboard.out   () -> string
  clipboard.set                   (text) -> text

TEXT
  text.upper, text.lower, text.trim   (s) -> string
  text.sanitize                       (s) -> string without control
                                      characters, whitespace collapsed
  text.replace                        (s, search, replacement) -> string
  text.contains                       (s, needle) -> boolean

KEYS
  send                                (text) -> null

WINDOW
  window.focus                        (title) -> boolean (found)
  window.next, window.prev            () -> null
  window.list                         () -> list of titles

SYSTEM
  system.sleep                        (milliseconds) -> null
  system.log                          (message) -> null
"

/-- The operators and their order. -/
def operatorsText : String := "OPERATORS - Arithmetic, Comparison and Logic

PRECEDENCE (lowest first)
  |                 Pipeline
  or  ||
  and &&
  == != < <= > >=
  + -
  * /
  -x                Unary minus

ARITHMETIC
  +   Concatenates when either side is a string, otherwise adds
  - * /
      Integer results stay integers; inexact division gives a float.
      Division by zero is an error.

COMPARISON
  == and != compare strings (and lists) exactly, anything else by number.
  Ordering operators always compare numbers.

LOGIC
  and / or short-circuit and return a boolean.
"

/-- The values and their conversions. -/
def typesText : String := "TYPES - Values and Conversions

  null, boolean, integer, float, string, list (of strings)

TRUTHINESS
  false: null, false, 0, \"\", empty list
  true:  everything else

AS NUMBER
  strings are parsed (surrounding spaces ignored), 0 if not a number
  true -> 1, false -> 0, null -> 0, lists -> 0

AS STRING
  null -> \"null\", booleans -> \"true\"/\"false\", lists -> \"[a, b]\"
"

/-- The ways of running scripts. -/
def modesText : String := "MODES - Execution Strategies

INTERPRETER (default)
  Walks the syntax tree. Every statement runs; bindings capture the
  variables defined before them.

JIT
  Each binding's action is compiled to machine code when the script
  loads. Unknown names and wrong argument counts are reported at load
  time. Other top-level statements run once as compiled code.

AHEAD-OF-TIME
  hotkey compile script.hk script.hkb
    Compiles every binding to verify it, then writes a bundle. Running
    the bundle binds the verified actions natively.
"

/-- The explanation of a topic. -/
def Topic.text : Topic → String
  | .statements => statementsText
  | .hotkeys => hotkeysText
  | .pipelines => pipelinesText
  | .modules => modulesText
  | .operators => operatorsText
  | .types => typesText
  | .modes => modesText

end Manual
end Chord
