import Offside.Config
import Offside.Decimal.Digits

/-!
# Command line arguments

`Request.ofArgs` reads the arguments of the program: options before or after the name of a command,
and the words that the command takes.
-/

namespace Offside

/-- What the program is asked to do. -/
inductive Command where
  | runFile (path : String)
  | runText (source : String)
  | listTokens (path : String)
  | listTree (path : String)
  | runTests
  deriving DecidableEq

structure Request where
  config : Config
  command : Command
  deriving DecidableEq

/-- Why the arguments ask for nothing that can be done. -/
inductive Halt where
  | help
  | version
  | invalid
  deriving DecidableEq

namespace CommandLine

inductive Setting where
  | debug | tabSize | code | resultName | help | version
  deriving DecidableEq

/-- How an option is written: `--name`, or `-` and a letter. -/
structure OptionRule where
  setting : Setting
  letter : Option Char := none
  name : String
  valued : Bool := false

def commonRules : List OptionRule := [
  { setting := .debug, letter := some 'd', name := "debug" },
  { setting := .tabSize, name := "tab-size", valued := true },
  { setting := .help, letter := some 'h', name := "help" }]

def outerRules : List OptionRule :=
  { setting := .version, letter := some 'V', name := "version" } :: commonRules

/-- The names of the commands, apart from `help`. -/
inductive Verb where
  | run | tokens | ast | test
  deriving DecidableEq

namespace Verb

def spelling : Verb → String
  | .run => "run"
  | .tokens => "tokens"
  | .ast => "ast"
  | .test => "test"

def all : List Verb := [.run, .tokens, .ast, .test]

def ofName? (name : String) : Option Verb := all.find? (·.spelling == name)

def rules : Verb → List OptionRule
  | .run =>
    { setting := .code, letter := some 'e', name := "eval", valued := true } :: commonRules
  | .test => { setting := .resultName, name := "result-name", valued := true } :: commonRules
  | .tokens | .ast => commonRules

end Verb

inductive Item where
  | option (setting : Setting) (value : String)
  | word (text : String)
  | command (name : String) (args : List String)
  | invalid

/-- The options in a row of letters, and one that waits for its value in the next argument. -/
def letters (rules : List OptionRule) : List Char → List Item × Option Setting
  | [] => ([], none)
  | letter :: rest =>
    match rules.find? (·.letter == some letter) with
    | none => ([.invalid], none)
    | some rule =>
      if rule.valued then
        match rest with
        | [] => ([], some rule.setting)
        | '=' :: value | value => ([.option rule.setting (String.ofList value)], none)
      else
        let (items, waiting) := letters rules rest
        (.option rule.setting "" :: items, waiting)

/-- The option after two hyphens, which may wait for its value in the next argument. -/
def longOption (rules : List OptionRule) (text : List Char) : List Item × Option Setting :=
  let name := text.takeWhile (· ≠ '=')
  match rules.find? (·.name.toList == name), text.dropWhile (· ≠ '=') with
  | some rule, [] =>
    if rule.valued then ([], some rule.setting) else ([.option rule.setting ""], none)
  | some rule, _ :: value =>
    if rule.valued then ([.option rule.setting (String.ofList value)], none)
    else ([.invalid], none)
  | none, _ => ([.invalid], none)

/-- The parts of a command line. With `nested` a word is an argument of the command, and without it
the name of the command, which what follows belongs to. -/
def scan (rules : List OptionRule) (nested : Bool) : Option Setting → List String → List Item
  | none, [] => []
  | some _, [] => [.invalid]
  | waiting, arg :: rest =>
    match waiting, arg.toList with
    | some _, '-' :: _ :: _ => [.invalid]
    | some setting, _ => .option setting arg :: scan rules nested none rest
    | none, ['-', '-'] => rest.map .word
    | none, '-' :: '-' :: text =>
      let (items, waiting) := longOption rules text
      items ++ scan rules nested waiting rest
    | none, '-' :: letter :: more =>
      let (items, waiting) := letters rules (letter :: more)
      items ++ scan rules nested waiting rest
    | none, _ => if nested then .word arg :: scan rules nested none rest else [.command arg rest]

structure Options where
  debug : Bool := false
  tabSize : Option UInt64 := none
  code : Option String := none
  resultName : Option String := none
  word : Option String := none

/-- A number of 64 bits, a plus sign allowed. -/
def size? (text : String) : Option UInt64 :=
  let digits := match text.toList with
    | '+' :: digits | digits => digits
  let n := Decimal.natOf 10 digits
  if !digits.isEmpty && digits.all Char.isDigit && n < UInt64.size then some (UInt64.ofNat n) else none

namespace Options

/-- Adds one part. Nothing may be given twice, and a word may not be empty. -/
def add (o : Options) : Item → Except Halt Options
  | .option .help _ => .error .help
  | .option .version _ => .error .version
  | .option .debug _ => if o.debug then .error .invalid else .ok { o with debug := true }
  | .option .tabSize text =>
    match o.tabSize, size? text with
    | none, some size => .ok { o with tabSize := some size }
    | _, _ => .error .invalid
  | .option .code text =>
    if o.code.isSome then .error .invalid else .ok { o with code := some text }
  | .option .resultName text =>
    if o.resultName.isSome then .error .invalid else .ok { o with resultName := some text }
  | .word text =>
    if o.word.isSome || text.isEmpty then .error .invalid else .ok { o with word := some text }
  | .command .. | .invalid => .error .invalid

/-- The options up to the command, its name and what follows it. -/
def upToCommand (o : Options) : List Item → Except Halt (Options × String × List String)
  | .command name args :: _ => .ok (o, name, args)
  | .word _ :: _ | [] => .error .invalid
  | item :: rest => do (← o.add item).upToCommand rest

/-- What options say on top of those before the command. -/
def config (outer inner : Options) : Config :=
  let default : Config := {}
  { tabSize := max ((inner.tabSize.or outer.tabSize).getD default.tabSize) 1
    resultName := inner.resultName.getD default.resultName
    testDir := inner.word.getD default.testDir
    debug := outer.debug || inner.debug }

end Options

/-- The command that a verb and what follows it name. -/
def command? (verb : Verb) (o : Options) : Option Command :=
  match verb, o.word, o.code with
  | .run, some path, none => some (.runFile path)
  | .run, none, some source => some (.runText source)
  | .tokens, some path, _ => some (.listTokens path)
  | .ast, some path, _ => some (.listTree path)
  | .test, _, _ => some .runTests
  | _, _, _ => none

/-- Help is given on the whole program or on one command. -/
def help (topic : List String) : Halt :=
  match topic with
  | [] => .help
  | [name] => if name = "help" ∨ (Verb.ofName? name).isSome then .help else .invalid
  | _ => .invalid

end CommandLine

open CommandLine in
/-- Reads the arguments from left to right. The first one that is wrong or asks for help decides. -/
def Request.ofArgs (args : List String) : Except Halt Request := do
  let (outer, name, rest) ← Options.upToCommand {} (scan outerRules false none args)
  if name = "help" then throw (help rest)
  let some verb := Verb.ofName? name | throw .invalid
  let inner ← (scan verb.rules true none rest).foldlM Options.add {}
  let some command := command? verb inner | throw .invalid
  return { config := outer.config inner, command }

end Offside
